import SuiteDraft.Grammar.Markup
import SuiteDraft.Json.Writer
import SuiteDraft.Proofs.Grammar.Strings

/-!
# Quoted texts

A quoted text is a string literal of that text, wherever it stands in a source, and has no control
character in it. As the value of an attribute it is a literal of that text only if nothing in it is
escaped, since such a literal has no escapes.
-/

namespace SuiteDraft

namespace Literal

open Grammar Parser

/-- From here the reader takes so many characters, and they are a literal of this text. -/
def ReadsAs (reader : Parser Tree) (s : Input) (length : Nat) (text : String) : Prop :=
  ∃ tree : Tree, reader s = some (tree, s.drop length) ∧ value? tree = .ok (some text)

theorem ReadsAs.unique {reader : Parser Tree} {s : Input} {length length' : Nat}
    {text text' : String} (h : ReadsAs reader s length text) (h' : ReadsAs reader s length' text') :
    s.drop length = s.drop length' ∧ text = text' := by
  have ⟨tree, read, value⟩ := h
  have ⟨tree', read', value'⟩ := h'
  have ⟨tree_eq, rest_eq⟩ := Prod.mk.inj (Option.some.inj (read.symm.trans read'))
  rw [tree_eq, value'] at value
  exact ⟨rest_eq, (Option.some.inj (Except.ok.inj value)).symm⟩

end Literal

namespace Json

open Grammar Parser Literal Input

variable {s : Input} {after : List Char}

/-! ## As a string literal -/

/-- The part of a literal by which a character is written. -/
def partOf (c : Char) : Part :=
  if c == '"' then .itself '"'
  else if c == '\\' then .itself '\\'
  else if c == '\n' then .control .lineFeed
  else if c == '\r' then .control .carriageReturn
  else if c == '\t' then .control .tab
  else if c == '\x08' then .control .backspace
  else if c == '\x0c' then .control .formFeed
  else if c.toNat < 32 then .unit .four (Text.hexDigits 4 c.toNat)
  else .raw c

theorem write_partOf (c : Char) : (partOf c).write = escapeChar c := by
  unfold partOf escapeChar
  split_ifs <;> rfl

/-- The ways in which a character is written: the two marks, the controls that have a letter, the
other controls and what stands as it is. -/
theorem partOf_cases {P : Char → Part → Prop} (quote : P '"' (.itself '"'))
    (backslash : P '\\' (.itself '\\'))
    (letter : ∀ k : Control, k ≠ .null → P (Char.ofNat k.point) (.control k))
    (control : ∀ c : Char, c.toNat < 32 → P c (.unit .four (Text.hexDigits 4 c.toNat)))
    (raw : ∀ c : Char, c ≠ '"' → c ≠ '\\' → 32 ≤ c.toNat → P c (.raw c)) (c : Char) :
    P c (partOf c) := by
  have of_eq {c d : Char} {p : Part} (h : P d p) (c_eq : (c == d) = true) : P c p :=
    beq_iff_eq.mp c_eq ▸ h
  unfold partOf
  split_ifs with h₁ h₂ h₃ h₄ h₅ h₆ h₇ h₈
  · exact of_eq quote h₁
  · exact of_eq backslash h₂
  · exact of_eq (letter .lineFeed nofun) h₃
  · exact of_eq (letter .carriageReturn nofun) h₄
  · exact of_eq (letter .tab nofun) h₅
  · exact of_eq (letter .backspace nofun) h₆
  · exact of_eq (letter .formFeed nofun) h₇
  · exact control c h₈
  · rw [beq_iff_eq] at h₁ h₂
    exact raw c h₁ h₂ (Nat.le_of_not_lt h₈)

theorem points_partOf (c : Char) : (partOf c).points = [c.toNat] := by
  refine partOf_cases (P := fun c p => p.points = [c.toNat]) rfl rfl ?_ ?_ (fun _ _ _ _ => rfl) c
  · intro k _
    cases k <;> rfl
  · intro c small
    show [Text.hexValue (Text.hexDigits 4 c.toNat)] = _
    rw [Text.hexValue_hexDigits, Nat.mod_eq_of_lt (by omega)]

theorem valid_partOf (c : Char) : (partOf c).Valid '"' := by
  refine partOf_cases (P := fun _ p => p.Valid '"') (by decide) (by decide) (fun _ _ => trivial) ?_ ?_ c
  · intro c _
    exact ⟨Text.length_hexDigits 4 _, fun d hd => Text.isHexDigit_of_mem_hexDigits hd⟩
  · intro c quote backslash visible
    refine ⟨quote, backslash, ?_, ?_⟩ <;> rintro rfl <;> exact absurd visible (by decide)

/-- What is written of a character ends with it, whatever follows. -/
theorem ends_partOf (c : Char) (q : Part) :
    partOf c ≠ .control .null ∧ (partOf c).swallows q = false := by
  refine partOf_cases (P := fun _ p => p ≠ .control .null ∧ p.swallows q = false) ⟨nofun, rfl⟩
    ⟨nofun, rfl⟩ ?_ (fun _ _ => ⟨nofun, rfl⟩) (fun _ _ _ _ => ⟨nofun, rfl⟩) c
  intro k notNull
  exact ⟨fun h => notNull (Part.control.inj h), rfl⟩

theorem strict_partOf (text : List Char) : Strict '"' (text.map partOf) where
  valid := List.forall_mem_map.mpr fun c _ => valid_partOf c
  apart := by
    refine (List.pairwise_map.mpr (List.pairwise_of_forall fun c d => ?_)).isChain
    exact fun null => absurd null (ends_partOf c (partOf d)).1

theorem kept_partOf (text : List Char) : kept (text.map partOf) = text.map partOf := by
  refine kept_eq_self (List.pairwise_map.mpr (List.pairwise_of_forall fun c d => ?_)).isChain
  exact (ends_partOf c (partOf d)).2

theorem write_map_partOf (text : List Char) :
    (text.map partOf).flatMap Part.write = text.flatMap escapeChar := by
  rw [List.flatMap_map]
  exact congrArg (text.flatMap ·) (funext write_partOf)

theorem points_map_partOf (text : List Char) :
    (text.map partOf).flatMap Part.points = text.map Char.toNat := by
  rw [List.flatMap_map, List.map_eq_flatMap]
  exact congrArg (text.flatMap ·) (funext points_partOf)

theorem stringLiteral_readsAs {text : List Char} (numbered : s.Numbered)
    (hs : s.chars = quoteChars text ++ after) :
    ReadsAs stringLiteral s (quoteChars text).length (String.ofList text) := by
  have parts_eq : s.chars =
      '"' :: ((text.map partOf).flatMap Part.write ++ '"' :: after) := by
    rw [hs, write_map_partOf, quoteChars, List.cons_append, List.cons_append, List.append_assoc]
    rfl
  have length_eq : ((text.map partOf).flatMap Part.write).length + 2 = (quoteChars text).length := by
    rw [write_map_partOf, quoteChars, List.length_append, List.length_cons]
    rfl
  have ⟨tree, read, value⟩ := stringLiteral_some (.inl rfl) (strict_partOf text) numbered parts_eq
  rw [kept_partOf, points_map_partOf, Text.ofCodePoints_toNat] at value
  rw [length_eq] at read
  exact ⟨tree, read, value⟩

theorem visible_escapeChar (c : Char) : ∀ d ∈ escapeChar c, 32 ≤ d.toNat := by
  rw [← write_partOf]
  refine partOf_cases (P := fun _ p => ∀ d ∈ p.write, 32 ≤ d.toNat) ?_ ?_ ?_ ?_ ?_ c
  · simp [Part.write]
  · simp [Part.write]
  · intro k _
    cases k <;> simp [Part.write, Control.letter]
  · intro c _
    have digits : ∀ d ∈ Text.hexDigits 4 c.toNat, 32 ≤ d.toNat := fun d hd =>
      Text.of_isHexDigit (P := fun d => 32 ≤ d.toNat) (by decide +kernel)
        (Text.isHexDigit_of_mem_hexDigits hd)
    simpa [Part.write, Width.letter] using digits
  · intro c _ _ visible d hd
    rw [List.mem_singleton.mp hd]
    exact visible

theorem toList_quote (text : String) : (quote text).toList = quoteChars text.toList :=
  String.toList_ofList

theorem length_quote (text : String) : (quote text).length = (quoteChars text.toList).length := by
  rw [← String.length_toList, toList_quote]

/-- No character of a quoted text is a control. -/
theorem visible_quote (text : String) : ∀ c ∈ (quote text).toList, 32 ≤ c.toNat := by
  have mark : 32 ≤ '"'.toNat := by decide
  intro c hc
  simp only [toList_quote, quoteChars, List.cons_append, List.mem_cons, List.mem_append,
    List.mem_flatMap, List.not_mem_nil, or_false] at hc
  rcases hc with rfl | ⟨d, _, inside⟩ | rfl
  · exact mark
  · exact visible_escapeChar d c inside
  · exact mark

/-- A quoted text is read to its closing quote, as a literal of the text. -/
theorem quote_readsAs {text : String} (numbered : s.Numbered)
    (hs : s.chars = (quote text).toList ++ after) :
    ReadsAs stringLiteral s (quote text).length text := by
  have reads := stringLiteral_readsAs numbered (toList_quote text ▸ hs)
  rwa [← length_quote, String.ofList_toList] at reads

/-- Two texts are not quoted alike. -/
theorem quote_injective {text text' : String} (h : quote text = quote text') : text = text' := by
  have chars_eq (t : String) : chars (ofGlyphs (Glyph.ofText (quote t))) =
      (quote t).toList ++ [] := by
    rw [chars_ofGlyphs, Glyph.ofText, List.map_map, List.append_nil]
    exact List.map_id _
  have reads := quote_readsAs (numbered_ofGlyphs _) (chars_eq text)
  have reads' := quote_readsAs (numbered_ofGlyphs _) (chars_eq text')
  rw [← h] at reads'
  exact (reads.unique reads').2

/-! ## As the value of an attribute -/

/-- Nothing in the text is escaped when it is quoted. -/
def Unescaped (text : List Char) : Prop := ∀ c ∈ text, escapeChar c = [c]

theorem Unescaped.flatMap_eq {text : List Char} (h : Unescaped text) :
    text.flatMap escapeChar = text := by
  induction text with
  | nil => rfl
  | cons c text ih =>
    have rest := ih fun d hd => h d (List.mem_cons_of_mem _ hd)
    rw [List.flatMap_cons, h c List.mem_cons_self, rest, List.singleton_append]

/-- A character that is escaped takes more than one. -/
theorem escapeChar_eq_or_length (c : Char) : escapeChar c = [c] ∨ 1 < (escapeChar c).length := by
  rw [← write_partOf]
  refine partOf_cases (P := fun c p => p.write = [c] ∨ 1 < p.write.length) (.inr (by decide))
    (.inr (by decide)) (fun k _ => .inr (by cases k <;> decide)) (fun c _ => .inr ?_)
    (fun c _ _ _ => .inl rfl) c
  simp [Part.write]

theorem length_le_flatMap (text : List Char) :
    text.length ≤ (text.flatMap escapeChar).length := by
  induction text with
  | nil => exact Nat.le_refl _
  | cons c text ih =>
    have one : 0 < (escapeChar c).length := by
      rcases escapeChar_eq_or_length c with plain | long
      · rw [plain]
        exact Nat.one_pos
      · exact Nat.zero_lt_of_lt long
    rw [List.flatMap_cons, List.length_append, List.length_cons]
    omega

theorem unescaped_of_length {text : List Char}
    (h : (text.flatMap escapeChar).length = text.length) : Unescaped text := by
  induction text with
  | nil => exact nofun
  | cons c text ih =>
    have rest := length_le_flatMap text
    rw [List.flatMap_cons, List.length_append, List.length_cons] at h
    rcases escapeChar_eq_or_length c with plain | long
    · rw [plain, List.length_singleton] at h
      have others := ih (by omega)
      exact List.forall_mem_cons.mpr ⟨plain, others⟩
    · omega

/-- One piece of a string that is the value of an attribute. -/
def attributePiece (quote : Char) : Parser Tree :=
  leafHere .stringFragment (attributeText quote) <|>
    leafHere .characterReference characterReference

theorem attributePiece_none (numbered : s.Numbered) (hs : s.chars = '"' :: after) :
    attributePiece '"' s = none := by
  have noText : Finds (attributeText '"') s.chars none := by
    rw [hs]
    exact Finds.run1_none fun c hc => by rw [← Option.some.inj hc]; rfl
  have noReference : Finds characterReference s.chars none := by
    rw [hs]
    exact Finds.andThen_none (Finds.andThen_none (Finds.exactly_not rfl (by decide)))
  rw [attributePiece, orElse_none (leafHere_none _ numbered noText)]
  exact leafHere_none _ numbered noReference

theorem attributePiece_some {inner : List Char} (nonempty : inner ≠ [])
    (plain : ∀ c ∈ inner, c ≠ '"' ∧ c ≠ '&') (numbered : s.Numbered)
    (hs : s.chars = inner ++ '"' :: after) :
    ∃ tree : Tree, attributePiece '"' s = some (tree, s.drop inner.length) ∧
      tree.kind = .stringFragment ∧ tree.text = String.ofList inner := by
  have found : Finds (attributeText '"') s.chars (some inner.length) := by
    rw [hs]
    cases inner with
    | nil => exact absurd rfl nonempty
    | cons c run =>
      refine Finds.run1_run (fun d hd => ?_) (fun d hd => ?_)
      · simp [plain d hd]
      · rw [← Option.some.inj hd]
        rfl
  have text_eq := text_build .stringFragment numbered (found.le _ rfl) []
  rw [hs, List.take_left] at text_eq
  exact ⟨_, orElse_some (leafHere_some _ numbered found) _, rfl, text_eq⟩

/-- What stands between the quotes of an attribute's value is read as it is, if it has neither a
quote nor the mark of a reference. -/
theorem attributeString_readsAs {inner : List Char} (plain : ∀ c ∈ inner, c ≠ '"' ∧ c ≠ '&')
    (numbered : s.Numbered) (hs : s.chars = '"' :: (inner ++ '"' :: after)) :
    ReadsAs (attributeString '"') s (inner.length + 2) (String.ofList inner) := by
  have front : chars (s.drop 1) = inner ++ '"' :: after := by
    rw [chars_drop, hs]
    rfl
  have behind : chars ((s.drop 1).drop inner.length) = '"' :: after := by
    rw [chars_drop, front, List.drop_left]
  have stops := attributePiece_none ((numbered.drop 1).drop inner.length) behind
  have ⟨trees, read, values⟩ : ∃ trees : List Tree,
      many (attributePiece '"') (s.drop 1) = some (trees, (s.drop 1).drop inner.length) ∧
        pieces trees = .ok (some (inner.map Char.toNat)) := by
    by_cases empty : inner = []
    · rw [empty] at stops ⊢
      exact ⟨[], many_none stops, rfl⟩
    · have ⟨tree, read, kind, text⟩ := attributePiece_some empty plain (numbered.drop 1) front
      have left : 0 < Input.left (s.drop 1) := by
        rw [(numbered.drop 1).left_eq, ← length_chars, front, List.length_append]
        exact Nat.add_pos_right _ (Nat.succ_pos _)
      have value : piece tree = .ok (inner.map Char.toNat) := by
        rw [piece, kind, text, String.toList_ofList]
        rfl
      refine ⟨[tree], many_single read left stops, ?_⟩
      rw [← List.append_nil (inner.map _)]
      exact pieces_cons (by rw [kind]; nofun) value rfl
  refine ⟨_, marked_some rfl (by decide) hs read, ?_⟩
  rw [value?_string values, Text.ofCodePoints_toNat]

theorem ampersand_of_mem_escapeChar {c : Char} (h : '&' ∈ escapeChar c) : c = '&' := by
  rw [← write_partOf] at h
  refine partOf_cases (P := fun c p => '&' ∈ p.write → c = '&') ?_ ?_ ?_ ?_ ?_ c h
  · simp [Part.write]
  · simp [Part.write]
  · intro k _
    cases k <;> simp [Part.write, Control.letter]
  · intro c _ mem
    have digit : '&' ∈ Text.hexDigits 4 c.toNat := by simpa [Part.write, Width.letter] using mem
    exact absurd (Text.isHexDigit_of_mem_hexDigits digit) (by decide)
  · intro c _ _ _ mem
    exact (List.mem_singleton.mp mem).symm

theorem attributeString_readsAs_iff {text : List Char} (noReference : '&' ∉ text)
    (numbered : s.Numbered) (hs : s.chars = quoteChars text ++ after) :
    ReadsAs (attributeString '"') s (quoteChars text).length (String.ofList text) ↔
      Unescaped text := by
  let body := text.flatMap escapeChar
  have length_eq : (quoteChars text).length = body.length + 2 := by
    rw [quoteChars, List.length_append, List.length_cons]
    rfl
  have hs' : s.chars = '"' :: (body ++ '"' :: after) := by
    rw [hs, quoteChars, List.cons_append, List.cons_append, List.append_assoc]
    rfl
  have noAmpersand : '&' ∉ body := by
    intro mem
    have ⟨c, inside, hc⟩ := List.mem_flatMap.mp mem
    exact noReference (ampersand_of_mem_escapeChar hc ▸ inside)
  rw [length_eq]
  constructor
  · intro reads
    -- the reading ends at the first quote, escaped or not
    have ⟨inner, more, split, first⟩ :=
      List.eq_append_cons_of_mem (show '"' ∈ body ++ ['"'] by simp)
    have shorter : inner.length ≤ body.length := by
      have length := congrArg List.length split
      simp only [List.length_append, List.length_cons, List.length_nil] at length
      omega
    have within : inner <+: body ++ ['"'] := by
      rw [split]
      exact List.prefix_append _ _
    have front : inner <+: body :=
      List.prefix_of_prefix_length_le within (List.prefix_append _ _) shorter
    have plain : ∀ c ∈ inner, c ≠ '"' ∧ c ≠ '&' := by
      intro c hc
      refine ⟨?_, ?_⟩ <;> rintro rfl
      · exact first hc
      · exact noAmpersand (front.subset hc)
    have parts : s.chars = '"' :: (inner ++ '"' :: (more ++ after)) := by
      rw [hs', List.append_cons, split, List.append_assoc]
      rfl
    have here := attributeString_readsAs plain numbered parts
    have ⟨rest_eq, text_eq⟩ := reads.unique here
    have room : body.length + 2 ≤ s.length := by
      rw [← length_chars, hs', List.length_cons, List.length_append, List.length_cons]
      omega
    have left := congrArg List.length rest_eq
    rw [List.length_drop, List.length_drop] at left
    have whole : text = inner := String.ofList_injective text_eq
    refine unescaped_of_length ?_
    show body.length = text.length
    rw [whole]
    omega
  · intro plain
    have body_eq : body = text := plain.flatMap_eq
    have noQuote : '"' ∉ text := fun mem => absurd (plain _ mem) (by decide)
    rw [body_eq] at hs' ⊢
    refine attributeString_readsAs (fun c hc => ⟨?_, ?_⟩) numbered hs' <;> rintro rfl
    · exact noQuote hc
    · exact noReference hc

/-- As the value of an attribute a quoted text without references is a literal of that text exactly
if nothing in it is escaped. -/
theorem quote_readsAs_attribute_iff {text : String} (noReference : '&' ∉ text.toList)
    (numbered : s.Numbered) (hs : s.chars = (quote text).toList ++ after) :
    ReadsAs (attributeString '"') s (quote text).length text ↔ Unescaped text.toList := by
  have reads := attributeString_readsAs_iff noReference numbered (toList_quote text ▸ hs)
  rwa [← length_quote, String.ofList_toList] at reads

end Json

end SuiteDraft
