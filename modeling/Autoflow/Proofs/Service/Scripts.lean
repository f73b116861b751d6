import Autoflow.NodeType.Registry
import Autoflow.Proofs.Checks

/-!
# Reading a script back

The JSON form of a script is read back as the script (`Script.ofJson_toJson`), so a type whose
nodes are scripted builds the service of a node again from the configuration that the service
exports (`build_config`). All builtin types are of this sort.
-/

namespace Autoflow

/-- An object whose fields pass is read as these fields if none has to be there. -/
theorem Shape.read_object {s : Shape} {fields : List (String × Json)}
    (checked : ∀ p ∈ fields, s.checkField p = .ok ())
    (optional : (s.fields.find? fun f => f.inObject && (Assoc.find? f.name fields).isNone) = none) :
    s.read (.object fields) = .ok fields := by
  simp only [read, Except.forM_eq_ok.2 checked, optional]
  rfl

theorem Edge.decode_toJson (e : Edge) : Edge.decode e.toJson = .ok e := rfl

theorem Edge.decode_list (l : List Edge) :
    Decoder.list Edge.decode (.array (l.map Edge.toJson)) = .ok l := by
  unfold Decoder.list
  induction l with
  | nil => rfl
  | cons e l ih =>
    simp only [List.map_cons, List.mapM_cons] at ih ⊢
    rw [Edge.decode_toJson, ih]
    rfl

namespace Script

variable (s : Script)

/-- The edges, if they are written. -/
def edges? : Option (List Edge) := if s.edges.isEmpty then none else some s.edges

/-- The label of the default output, if it is written. -/
def defaultLabel? : Option String := if s.defaultLabel.isEmpty then none else some s.defaultLabel

theorem edges?_getD : s.edges?.getD [] = s.edges := by
  unfold edges?
  cases s.edges <;> rfl

theorem defaultLabel?_getD : s.defaultLabel?.getD "" = s.defaultLabel := by
  unfold defaultLabel?
  split
  · next empty => exact (String.isEmpty_iff.1 empty).symm
  · rfl

/-- The fields of the JSON form. -/
def fields : List (String × Json) :=
  [("data", s.data), ("output", .string s.output)]
    ++ (s.edges?.map fun l => ("edges", Json.array (l.map Edge.toJson))).toList
    ++ (s.defaultLabel?.map fun l => ("default_label", Json.string l)).toList
    ++ (s.misconfigured.map fun m => ("misconfigured", Json.string m)).toList
    ++ (s.error.map fun m => ("error", Json.string m)).toList

theorem toJson_eq : s.toJson = .object s.fields := by
  unfold toJson fields edges? defaultLabel?
  cases s.edges.isEmpty <;> cases s.defaultLabel.isEmpty <;> rfl

theorem find?_fields (k : String) : Assoc.find? k s.fields =
    if "data" = k then some s.data
    else if "output" = k then some (.string s.output)
    else if "edges" = k then s.edges?.map fun l => .array (l.map Edge.toJson)
    else if "default_label" = k then s.defaultLabel?.map .string
    else if "misconfigured" = k then s.misconfigured.map .string
    else if "error" = k then s.error.map .string
    else none := by
  simp only [fields, Assoc.find?_append, Assoc.find?_toList, Assoc.find?]
  grind

theorem checkField_fields : ∀ p ∈ s.fields, shape.checkField p = .ok () := by
  intro p hp
  simp only [fields, List.mem_append, List.mem_cons, List.not_mem_nil, or_false,
    Option.mem_toList, Option.map_eq_some_iff] at hp
  rcases hp with ((((rfl | rfl) | ⟨l, _, rfl⟩) | ⟨l, _, rfl⟩) | ⟨m, _, rfl⟩) | ⟨m, _, rfl⟩
  · rfl
  · rfl
  · show (Decoder.list Edge.decode (.array (l.map Edge.toJson))).map _ = _
    rw [Edge.decode_list]
    rfl
  · rfl
  · rfl
  · rfl

theorem read_toJson : shape.read s.toJson = .ok s.fields := by
  rw [toJson_eq]
  exact Shape.read_object s.checkField_fields rfl

/-- A field is decoded if it is written. -/
theorem optional_fields {α β : Type} {name : String} {d : Decoder β} {o : Option α}
    {write : α → Json} {value : α → β} (written : Assoc.find? name s.fields = o.map write)
    (read : ∀ a, d (write a) = .ok (value a)) :
    Decoder.optional s.fields name d = .ok (o.map value) := by
  unfold Decoder.optional
  rw [written]
  cases o with
  | none => rfl
  | some a =>
    show (d (write a) >>= fun b => pure (some b)) = _
    rw [read]
    rfl

theorem decode_toJson : decode s.toJson = .ok s := by
  have text : ∀ a, Decoder.text (.string a) = .ok a := fun _ => rfl
  have data : Decoder.optional s.fields "data" Decoder.any = .ok (some s.data) := by
    rw [Decoder.optional, s.find?_fields]
    rfl
  have output : Decoder.optional s.fields "output" Decoder.text = .ok (some s.output) := by
    rw [Decoder.optional, s.find?_fields]
    rfl
  have edges : Decoder.optional s.fields "edges" (Decoder.list Edge.decode) = .ok s.edges? := by
    rw [s.optional_fields (s.find?_fields "edges") Edge.decode_list, Option.map_id']
  have label : Decoder.optional s.fields "default_label" Decoder.text = .ok s.defaultLabel? := by
    rw [s.optional_fields (s.find?_fields "default_label") text, Option.map_id']
  have misconfigured : Decoder.optional s.fields "misconfigured"
      (Decoder.nullable Decoder.text) = .ok (s.misconfigured.map some) :=
    s.optional_fields (s.find?_fields "misconfigured") fun _ => rfl
  have error : Decoder.optional s.fields "error" (Decoder.nullable Decoder.text) =
      .ok (s.error.map some) :=
    s.optional_fields (s.find?_fields "error") fun _ => rfl
  have join : ∀ o : Option String, (o.map some).join = o := by
    intro o
    cases o <;> rfl
  simp only [decode, read_toJson, bind, Except.bind, data, output, edges, label, misconfigured,
    error, pure, Except.pure, join, edges?_getD, defaultLabel?_getD, Option.getD_some]

theorem ofJson_toJson : ofJson s.toJson = .ok s := by
  have read := s.decode_toJson
  rw [toJson_eq] at read ⊢
  unfold ofJson
  simp only [read]

end Script

/-- A service that is given by a script. -/
def Service.IsScripted (s : Service) : Prop := ∃ script : Script, s = script.service

/-- A script exposes the default output. -/
theorem Service.IsScripted.hasOutput_default {s : Service} (h : s.IsScripted) :
    s.hasOutput "" = true := by
  obtain ⟨script, rfl⟩ := h
  simp [Script.service, hasOutput, Script.allEdges]

/-- All types have scripted nodes. -/
def Registry.Scripts (registry : Registry) : Prop :=
  ∀ name type, registry.get? name = some type → ∃ kind, type = .scripted type.name kind

namespace NodeType

variable {name : String} {kind : NodeKind} {s : Service}

theorem isScripted_of_build {config : Json} (h : (scripted name kind).build config = .ok s) :
    s.IsScripted := by
  simp only [scripted] at h
  cases read : Script.ofJson config with
  | error e => rw [read] at h; cases h
  | ok script =>
    rw [read] at h
    cases h
    exact ⟨script, rfl⟩

/-- A service is built again from the configuration it exports. -/
theorem build_config (h : s.IsScripted) : (scripted name kind).build s.config = .ok s := by
  obtain ⟨script, rfl⟩ := h
  show (Script.ofJson script.toJson).map _ = _
  rw [script.ofJson_toJson]
  rfl

end NodeType

theorem Registry.scripts_builtin : Registry.builtin.Scripts := by
  intro name type h
  rcases mem_of_get?_registerAll h with ⟨mem, _⟩ | h
  · simp only [NodeType.builtins, List.mem_cons, List.not_mem_nil, or_false] at mem
    rcases mem with rfl | rfl | rfl | rfl | rfl | rfl | rfl | rfl | rfl | rfl <;>
      exact ⟨_, rfl⟩
  · cases h

end Autoflow
