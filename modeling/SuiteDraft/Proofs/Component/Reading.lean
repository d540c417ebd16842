import SuiteDraft.Component.Dump
import SuiteDraft.Component.Reading
import SuiteDraft.Proofs.Lockstep

/-!
# Components read back

A component that is written as JSON and read again is the same component, also when fields of it or
of its records are spelled in snake case on the way. What is read from any JSON and written is
therefore written the same when it is read once more.
-/

namespace SuiteDraft

namespace Json

/-! ## Spellings of names -/

/-- A name in snake case: every capital is made small and has a low line before it. -/
def snakeCase (name : String) : String :=
  String.ofList (name.toList.flatMap fun c => if c.isUpper then ['_', c.toLower] else [c])

def spellings (name : String) : List String := [name, snakeCase name]

/-- Names that no spelling confuses. -/
def Apart (name name' : String) : Prop := ∀ s ∈ spellings name, s ∉ spellings name'

instance : DecidableRel Apart := fun _ _ => inferInstanceAs (Decidable (∀ s ∈ _, _))

/-- The same object but for the spelling of its names and for values, which `R` relates under each
name. -/
inductive Respelled (R : String → Json → Json → Prop) : Json → Json → Prop
  | object {members members' : List (String × Json)}
      (each : List.Forall₂ (fun m m' => m'.1 ∈ spellings m.1 ∧ R m.1 m.2 m'.2) members members') :
      Respelled R (.object members) (.object members')

theorem respelled_self {R : String → Json → Json → Prop} (refl : ∀ name v, R name v v)
    (members : List (String × Json)) : Respelled R (.object members) (.object members) :=
  .object (List.forall₂_same.mpr fun m _ => ⟨List.mem_cons_self, refl m.1 m.2⟩)

theorem field?_cons_of_notMem {name key : String} (h : key ∉ spellings name) (v : Json)
    (members : List (String × Json)) :
    (object ((key, v) :: members)).field? name (snakeCase name) =
      (object members).field? name (snakeCase name) := by
  have ne_name : (name == key) = false := beq_false_of_ne fun eq => h (eq ▸ List.mem_cons_self)
  have ne_snake : (snakeCase name == key) = false :=
    beq_false_of_ne fun eq => h (eq ▸ List.mem_cons_of_mem _ List.mem_cons_self)
  simp only [field?, member?, List.lookup_cons, ne_name, ne_snake]

theorem field?_cons_of_mem {name key : String} (h : key ∈ spellings name) (v : Json)
    {members : List (String × Json)} (others : ∀ m ∈ members, m.1 ∉ spellings name) :
    (object ((key, v) :: members)).field? name (snakeCase name) = some v := by
  have absent : members.lookup name = none := by
    rw [List.lookup_eq_none_iff]
    exact fun m mem => bne_iff_ne.mpr fun eq => others m mem (eq ▸ List.mem_cons_self)
  simp only [field?, member?, List.lookup_cons, absent]
  simp only [spellings, List.mem_cons, List.not_mem_nil, or_false] at h
  rcases h with rfl | rfl
  · rw [beq_self_eq_true]
    rfl
  · rw [beq_self_eq_true]
    cases name == snakeCase name <;> rfl

variable {R : String → Json → Json → Prop}

/-- A field is found under whichever name it stands. -/
theorem Respelled.field? {members : List (String × Json)} {j : Json}
    (h : Respelled R (.object members) j) (apart : (members.map (·.1)).Pairwise Apart) :
    ∀ m ∈ members, ∃ v, j.field? m.1 (snakeCase m.1) = some v ∧ R m.1 m.2 v := by
  obtain ⟨each⟩ := h
  induction each with
  | nil => exact nofun
  | @cons m m' members members' here each ih =>
    obtain ⟨key, v⟩ := m'
    rw [List.map_cons, List.pairwise_cons] at apart
    rw [List.forall_mem_cons]
    constructor
    · -- No later name is a spelling of this one, so that the first lookup does not miss it.
      refine ⟨v, field?_cons_of_mem here.1 v fun n' mem' => ?_, here.2⟩
      obtain ⟨n, mem, spelled, -⟩ := forall₂_exists_of_mem_right each mem'
      exact fun h => apart.1 n.1 (List.mem_map_of_mem mem) _ h spelled
    · intro n mem
      have other : key ∉ spellings n.1 := apart.1 n.1 (List.mem_map_of_mem mem) key here.1
      rw [field?_cons_of_notMem other]
      exact ih apart.2 n mem

theorem fieldOr?_of_field? {α : Type} {j : Json} {name other : String} {v : Json}
    (h : j.field? name other = some v) (absent : α) (read : Json → Option α) :
    j.fieldOr? name other absent read = read v := by
  rw [fieldOr?, h]

theorem member?_of_field? {j : Json} {name : String} {v : Json} (h : j.field? name name = some v) :
    j.member? name = some v := by
  rwa [field?, Option.or_self] at h

/-! ## Values -/

theorem asOptionalText?_ofText? (text? : Option String) :
    asOptionalText? (ofText? text?) = some text? := by
  cases text? <;> rfl

theorem asList?_of_forall₂ {α : Type} {read : Json → Option α} {items : List Json} {l : List α}
    (h : List.Forall₂ (fun j a => read j = some a) items l) : asList? read (.array items) = some l :=
  mapM_eq_some_of_forall₂ h

theorem asList?_map {α : Type} {read : Json → Option α} (write : α → Json)
    (back : ∀ a, read (write a) = some a) (l : List α) :
    asList? read (.array (l.map write)) = some l :=
  asList?_of_forall₂ (List.forall₂_map_left_iff.mpr (List.forall₂_same.mpr fun a _ => back a))

theorem asTexts?_ofTexts (texts : List String) : asList? asText? (ofTexts texts) = some texts :=
  asList?_map .string (fun _ => rfl) texts

theorem asKeyed?_map {α : Type} {read : Json → Option α} (write : α → Json)
    (back : ∀ a, read (write a) = some a) (k : Keyed α) :
    asKeyed? read (.object (k.map fun p => (p.1, write p.2))) = some k := by
  refine mapM_eq_some_of_forall₂ (List.forall₂_map_left_iff.mpr (List.forall₂_same.mpr ?_))
  intro p _
  rw [back]
  rfl

end Json

open Json

theorem PropertyValue.ofJson?_toJson (v : PropertyValue) : ofJson? v.toJson = some v := by
  cases v <;> rfl

theorem CallKind.ofName?_name (kind : CallKind) : ofName? kind.name = some kind := by
  cases kind <;> rfl

/-- The same record but for the spelling of its names. -/
abbrev RespelledRecord : Json → Json → Prop := Respelled fun _ v v' => v' = v

theorem RespelledRecord.field? {members : List (String × Json)} {j : Json}
    (h : RespelledRecord (.object members) j) (apart : (members.map (·.1)).Pairwise Apart) :
    ∀ m ∈ members, j.field? m.1 (snakeCase m.1) = some m.2 := by
  intro m mem
  obtain ⟨_, found, rfl⟩ := Respelled.field? h apart m mem
  exact found

namespace Element

theorem names_apart :
    ["type", "properties", "text", "stableId", "events", "roleHint"].Pairwise Apart := by
  decide +kernel

theorem snakeCase_names : snakeCase "type" = "type" ∧ snakeCase "properties" = "properties" ∧
    snakeCase "text" = "text" ∧ snakeCase "stableId" = "stable_id" ∧
    snakeCase "events" = "events" ∧ snakeCase "roleHint" = "role_hint" := by
  decide +kernel

theorem respelled_self (e : Element) : RespelledRecord e.toJson e.toJson :=
  Json.respelled_self (R := fun _ v v' => v' = v) (fun _ _ => rfl) _

theorem ofJson?_of_respelled {e : Element} {j : Json} (h : RespelledRecord e.toJson j) :
    ofJson? j = some e := by
  have fields := h.field? names_apart
  simp only [List.forall_mem_cons, snakeCase_names] at fields
  obtain ⟨type, properties, text, stableId, events, roleHint, -⟩ := fields
  have keyed := asKeyed?_map PropertyValue.toJson PropertyValue.ofJson?_toJson e.properties
  have named : asKeyed? asText? _ = some e.events := asKeyed?_map Json.string (fun _ => rfl) e.events
  simp only [ofJson?, member?_of_field? type, fieldOr?_of_field? properties,
    fieldOr?_of_field? text, fieldOr?_of_field? stableId, fieldOr?_of_field? events,
    fieldOr?_of_field? roleHint, asOptionalText?_ofText?, keyed, named]
  rfl

end Element

namespace StatePair

theorem names_apart : ["valueName", "setterName"].Pairwise Apart := by decide +kernel

theorem snakeCase_names :
    snakeCase "valueName" = "value_name" ∧ snakeCase "setterName" = "setter_name" := by
  decide +kernel

theorem respelled_self (s : StatePair) : RespelledRecord s.toJson s.toJson :=
  Json.respelled_self (R := fun _ v v' => v' = v) (fun _ _ => rfl) _

theorem ofJson?_of_respelled {s : StatePair} {j : Json} (h : RespelledRecord s.toJson j) :
    ofJson? j = some s := by
  have fields := h.field? names_apart
  simp only [List.forall_mem_cons, snakeCase_names] at fields
  obtain ⟨valueName, setterName, -⟩ := fields
  rw [ofJson?, valueName, setterName]
  rfl

end StatePair

theorem NetworkCall.ofJson?_toJson (c : NetworkCall) : ofJson? c.toJson = some c := by
  have kind : c.toJson.member? "kind" = some (.string c.kind.name) := rfl
  have method : c.toJson.field? "method" "method" = some (ofText? c.method) := rfl
  have url : c.toJson.field? "url" "url" = some (.string c.url) := rfl
  simp only [ofJson?, kind, fieldOr?_of_field? method, fieldOr?_of_field? url,
    asOptionalText?_ofText?]
  show (CallKind.ofName? c.kind.name).bind (fun kind => some ⟨kind, c.method, c.url⟩) = some c
  rw [CallKind.ofName?_name]
  rfl

namespace Component

/-- The same value of a component's field, but for the spelling of the names in elements and
states. -/
inductive SameValue (name : String) : Json → Json → Prop
  | same (v : Json) : SameValue name v v
  | records {items items' : List Json} (field : name = "elements" ∨ name = "states")
      (each : List.Forall₂ RespelledRecord items items') :
      SameValue name (.array items) (.array items')

theorem SameValue.eq {name : String} {v v' : Json} (h : SameValue name v v')
    (plain : ¬ (name = "elements" ∨ name = "states")) : v' = v := by
  cases h with
  | same => rfl
  | records field _ => exact absurd field plain

theorem SameValue.asList? {α : Type} {name : String} {v : Json} {l : List α} {read : Json → Option α}
    {write : α → Json} (h : SameValue name (.array (l.map write)) v)
    (self : ∀ a, RespelledRecord (write a) (write a))
    (back : ∀ a j, RespelledRecord (write a) j → read j = some a) : Json.asList? read v = some l := by
  cases h with
  | same => exact asList?_map write (fun a => back a _ (self a)) l
  | records _ each =>
    rw [List.forall₂_map_left_iff] at each
    exact asList?_of_forall₂ (each.imp fun a j => back a j).flip

theorem names_apart : ["name", "elements", "states", "hasEffects", "props", "usesFetch", "usesAxios",
    "apis", "effectDependencies", "eventToSetterMap"].Pairwise Apart := by
  decide +kernel

theorem snakeCase_names : snakeCase "name" = "name" ∧ snakeCase "elements" = "elements" ∧
    snakeCase "states" = "states" ∧ snakeCase "hasEffects" = "has_effects" ∧
    snakeCase "props" = "props" ∧ snakeCase "usesFetch" = "uses_fetch" ∧
    snakeCase "usesAxios" = "uses_axios" ∧ snakeCase "apis" = "apis" ∧
    snakeCase "effectDependencies" = "effect_dependencies" ∧
    snakeCase "eventToSetterMap" = "event_to_setter_map" := by
  decide +kernel

theorem ofJson?_of_respelled {c : Component} {j : Json} (h : Respelled SameValue c.toJson j) :
    ofJson? j = some c := by
  have object : (guard j.isObject : Option Unit) = some () := by
    cases h
    rfl
  have fields := h.field? names_apart
  simp only [List.forall_mem_cons, snakeCase_names] at fields
  obtain ⟨⟨_, name, same_name⟩, ⟨_, elements, same_elements⟩, ⟨_, states, same_states⟩,
    ⟨_, hasEffects, same_hasEffects⟩, ⟨_, props, same_props⟩, ⟨_, usesFetch, same_usesFetch⟩,
    ⟨_, usesAxios, same_usesAxios⟩, ⟨_, apis, same_apis⟩, ⟨_, effectDependencies, same_dependencies⟩,
    ⟨_, eventToSetterMap, same_map⟩, -⟩ := fields
  -- Outside elements and states a value is the very one that was written.
  obtain rfl := same_name.eq (by decide)
  obtain rfl := same_hasEffects.eq (by decide)
  obtain rfl := same_props.eq (by decide)
  obtain rfl := same_usesFetch.eq (by decide)
  obtain rfl := same_usesAxios.eq (by decide)
  obtain rfl := same_apis.eq (by decide)
  obtain rfl := same_dependencies.eq (by decide)
  obtain rfl := same_map.eq (by decide)
  have elements_back := same_elements.asList? Element.respelled_self
    fun _ _ => Element.ofJson?_of_respelled
  have states_back := same_states.asList? StatePair.respelled_self
    fun _ _ => StatePair.ofJson?_of_respelled
  have apis_back := asList?_map NetworkCall.toJson NetworkCall.ofJson?_toJson c.apis
  have map_back := asKeyed?_map ofTexts asTexts?_ofTexts c.eventToSetterMap
  rw [ofJson?, object]
  simp only [fieldOr?_of_field? name, fieldOr?_of_field? elements, fieldOr?_of_field? states,
    fieldOr?_of_field? hasEffects, fieldOr?_of_field? props, fieldOr?_of_field? usesFetch,
    fieldOr?_of_field? usesAxios, fieldOr?_of_field? apis, fieldOr?_of_field? effectDependencies,
    fieldOr?_of_field? eventToSetterMap, asTexts?_ofTexts, elements_back, states_back, apis_back,
    map_back]
  rfl

/-- What is read from JSON, written. -/
def rewritten? (j : Json) : Option Json := (ofJson? j).map toJson

/-- A component that is written is read back as it was, however the names of its fields and of those
of its elements and states are spelled. What is read from any JSON is therefore written the same when
it is read again. -/
theorem reads_back :
    (∀ c : Component, ofJson? c.toJson = some c) ∧
    (∀ (c : Component) (j : Json), Respelled SameValue c.toJson j → ofJson? j = some c) ∧
    (∀ j written, rewritten? j = some written → rewritten? written = some written) := by
  have back (c : Component) : ofJson? c.toJson = some c :=
    ofJson?_of_respelled (respelled_self (fun _ => SameValue.same) _)
  refine ⟨back, fun c j => ofJson?_of_respelled, fun j written h => ?_⟩
  obtain ⟨c, -, rfl⟩ := Option.map_eq_some_iff.mp h
  rw [rewritten?, back]
  rfl

/-- Flags beside texts that spell them, and optional fields with and without a value. -/
def panel : Component where
  name := "Panel"
  elements := [
    { tag := "input", stableId := some "query", roleHint := some "textbox"
      properties := [("disabled", .flag true), ("checked", .flag false), ("title", .text "true")]
      events := [("onChange", "change")] },
    { tag := "p", text := some "" }]
  states := [⟨"open", "setOpen"⟩]
  hasEffects := true
  props := ["title"]
  usesAxios := true
  apis := [{ kind := .axios, method := some "get", url := "/a" }, { kind := .fetch }]
  effectDependencies := ["open"]
  eventToSetterMap := [("onChange", ["setOpen"])]

/-- The panel, with the names in snake case here and there. -/
def panelRespelled : Json := .object [
  ("name", .string "Panel"),
  ("elements", .array [
    .object [("type", .string "input"),
      ("properties", .object
        [("disabled", .bool true), ("checked", .bool false), ("title", .string "true")]),
      ("text", .null), ("stable_id", .string "query"),
      ("events", .object [("onChange", .string "change")]), ("roleHint", .string "textbox")],
    .object [("type", .string "p"), ("properties", .object []), ("text", .string ""),
      ("stableId", .null), ("events", .object []), ("role_hint", .null)]]),
  ("states", .array [
    .object [("value_name", .string "open"), ("setterName", .string "setOpen")]]),
  ("has_effects", .bool true),
  ("props", .ofTexts ["title"]),
  ("usesFetch", .bool false),
  ("uses_axios", .bool true),
  ("apis", .array (panel.apis.map NetworkCall.toJson)),
  ("effect_dependencies", .ofTexts ["open"]),
  ("eventToSetterMap", .object [("onChange", .ofTexts ["setOpen"])])]

theorem panel_respelled : Respelled SameValue panel.toJson panelRespelled := by
  refine .object (.cons ⟨?_, .same _⟩ (.cons ⟨?_, .records (.inl rfl) ?elements⟩
    (.cons ⟨?_, .records (.inr rfl) ?states⟩ (.cons ⟨?_, .same _⟩ (.cons ⟨?_, .same _⟩
    (.cons ⟨?_, .same _⟩ (.cons ⟨?_, .same _⟩ (.cons ⟨?_, .same _⟩ (.cons ⟨?_, .same _⟩
    (.cons ⟨?_, .same _⟩ .nil))))))))))
  case elements =>
    refine .cons (.object ?input) (.cons (.object ?paragraph) .nil)
    all_goals
      refine .cons ⟨?_, rfl⟩ (.cons ⟨?_, rfl⟩ (.cons ⟨?_, rfl⟩ (.cons ⟨?_, rfl⟩ (.cons ⟨?_, rfl⟩
        (.cons ⟨?_, rfl⟩ .nil)))))
      all_goals decide +kernel
  case states =>
    refine .cons (.object (.cons ⟨?_, rfl⟩ (.cons ⟨?_, rfl⟩ .nil))) .nil
    all_goals decide +kernel
  all_goals decide +kernel

/-- Most fields are missing, one is unknown, and a flag is given as a word. -/
def sparse : Json := .object [
  ("kind", .string "page"),
  ("uses_fetch", .string "Yes"),
  ("elements", .array [.object [("stable_id", .string "query"), ("type", .string "p")]])]

theorem reads_back_panel :
    ofJson? panel.toJson = some panel ∧
    Respelled SameValue panel.toJson panelRespelled ∧ ofJson? panelRespelled = some panel ∧
    ofJson? sparse =
      some { usesFetch := true, elements := [{ tag := "p", stableId := some "query" }] } ∧
    (rewritten? sparse).bind rewritten? = rewritten? sparse := by
  obtain ⟨back, respelled, again⟩ := reads_back
  have read : ofJson? sparse =
      some { usesFetch := true, elements := [{ tag := "p", stableId := some "query" }] } := by
    decide +kernel
  refine ⟨back panel, panel_respelled, respelled panel _ panel_respelled, read, ?_⟩
  have written := congrArg (Option.map toJson) read
  rw [rewritten?, written]
  exact again sparse _ written

end Component

end SuiteDraft
