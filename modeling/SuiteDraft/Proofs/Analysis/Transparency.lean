import SuiteDraft.Grammar.Program
import SuiteDraft.Proofs.Analysis.Isolation
import SuiteDraft.Proofs.Analysis.Simulation
import SuiteDraft.Proofs.Source.Spells

/-!
# Layout and comments

Where the tokens of a file stand and which comments stand between them does not count: files whose
trees are alike once the comments are left out are analysed alike. The name of a function counts as
it is written, so that the blanks within a computed name do show.
-/

namespace SuiteDraft

open Place (Twins)

variable {hidden : Kind → Bool} {p p' : Place}

namespace Location

theorem ofStatement_rel (h : Twins hidden p p') : (ofStatement p).name = (ofStatement p').name ∧
    Option.Rel (Twins hidden) (ofStatement p).value (ofStatement p').value := by
  rw [ofStatement, ofStatement, ← declaredName?_eq h.alike]
  cases declaredName? p.node with
  | some name => exact ⟨rfl, .none⟩
  | none =>
    rcases rel_cases (h.child? .value) with ⟨hv, hv'⟩ | ⟨value, value', hv, hv', hvalue⟩
    · rw [hv, hv']
      exact ⟨rfl, .none⟩
    · rw [hv, hv']
      exact ⟨valueName?_eq hvalue.alike, .some hvalue⟩

variable (comments : ∀ kind, hidden kind = true → kind = .comment)

include comments

theorem defaultExport_rel (h : Twins hidden p p') :
    (defaultExport p.namedChildren).name = (defaultExport p'.namedChildren).name ∧
      Option.Rel (Twins hidden) (defaultExport p.namedChildren).value
        (defaultExport p'.namedChildren).value := by
  -- A comment is no statement, so that only the statements that are shown are searched.
  have hcomment : ∀ s : Place, (!hidden s.kind) = false → s.node.kind ≠ .exportStatement := by
    intro s hs
    have hkind : s.node.kind = .comment := comment_of_hidden comments hs
    rw [hkind]
    nofun
  have hfind : ∀ q : Place, q.namedChildren.find? (fun s => isDefaultExport s.node) =
      (q.namedChildren.filter fun s => !hidden s.kind).find? fun s => isDefaultExport s.node :=
    fun q => (find?_filter_eq fun s _ hs => isDefaultExport_of_kind (hcomment s hs)).symm
  have hclause : ∀ q : Place, q.namedChildren.findSome? (fun s => clauseExport? s.node) =
      (q.namedChildren.filter fun s => !hidden s.kind).findSome? fun s => clauseExport? s.node :=
    fun q => (findSome?_filter_eq fun s _ hs => clauseExport?_of_kind (hcomment s hs)).symm
  have hstatement := forall₂_find? (fun s s' (hs : Twins hidden s s') => isDefaultExport_eq hs.alike)
    (fun _ _ hs => hs) h.namedChildren_shown
  unfold defaultExport
  rw [hfind, hfind, hclause, hclause]
  rcases rel_cases hstatement with ⟨hs, hs'⟩ | ⟨s, s', hs, hs', htwins⟩
  · rw [hs, hs', findSome?_eq_of_forall₂ (fun s s' (hs : Twins hidden s s') =>
      clauseExport?_eq hs.alike) h.namedChildren_shown]
    exact ⟨rfl, .none⟩
  · rw [hs, hs']
    exact ofStatement_rel htwins

/-- Twins locate components of one name whose roots are twins. -/
theorem ofRoot_rel (h : Twins hidden p p') : (ofRoot p).name = (ofRoot p').name ∧
    List.Forall₂ (Twins hidden) (ofRoot p).roots (ofRoot p').roots := by
  rcases defaultExport_rel comments h with ⟨hname, hvalue⟩
  refine ⟨by rw [ofRoot, ofRoot, DefaultExport.componentName, DefaultExport.componentName, hname], ?_⟩
  have hexported : List.Forall₂ (Twins hidden)
      ((defaultExport p.namedChildren).value.bind Place.wrappedFunction?).toList
      ((defaultExport p'.namedChildren).value.bind Place.wrappedFunction?).toList := by
    rcases rel_cases hvalue with ⟨hv, hv'⟩ | ⟨value, value', hv, hv', htwins⟩
    · rw [hv, hv']
      exact .nil
    · rw [hv, hv']
      rcases rel_cases htwins.wrappedFunction? with ⟨hf, hf'⟩ | ⟨fn, fn', hf, hf', hfn⟩
      · rw [Option.bind_some, Option.bind_some, hf, hf']
        exact .nil
      · rw [Option.bind_some, Option.bind_some, hf, hf']
        exact .cons hfn .nil
  rw [ofRoot, ofRoot, scope, scope, ← hname]
  cases (defaultExport p.namedChildren).name with
  | none => exact hexported
  | some name => exact forall₂_ite_isEmpty hexported (definitions_rel name h)

theorem starts_rel (h : Twins hidden p p') : List.Forall₂ (Twins hidden) ((ofRoot p).starts p)
    ((ofRoot p').starts p') :=
  forall₂_ite_isEmpty (.cons h .nil) (ofRoot_rel comments h).2

end Location

namespace Analysis

/-- Files that are the same once their comments are left out are analysed alike: what is said along
the way and what comes of it are the same, wherever the tokens stand. -/
theorem report_of_alike {path : String} {tree tree' : Tree}
    (alike : tree.Alike (· == .comment) tree') (sound : tree.hasFault = false)
    (sound' : tree'.hasFault = false) : Report.ofTree path tree = Report.ofTree path tree' := by
  have comments : ∀ kind : Kind, (kind == .comment) = true → kind = .comment :=
    fun _ => eq_of_beq
  have htwins : Twins (· == .comment) ⟨tree, []⟩ ⟨tree', []⟩ := .outermost alike nofun nofun
  rcases Location.ofRoot_rel comments htwins with ⟨hname, hroots⟩
  exact report_eq_of_twins comments sound sound' hname hroots (Location.starts_rel comments htwins)

/-- A file without a blank or a comment more than it needs. -/
def denseSource : Tree := Grammar.treeOf .markup <| .ofGlyphs <| Glyph.ofText
  "export default function A({a}){useEffect(f,[a]);return <p.q b={a}/>}"

/-- The same file, laid out and with comments. -/
def spreadSource : Tree := Grammar.treeOf .markup <| .ofGlyphs <| Glyph.ofText <|
  "export default function A(/**/\x7b a \x7d)\x7b\n useEffect( f, [/**/a]) // b\n" ++
  " return <p . q b=\x7b/**/a\x7d/>\n\x7d"

theorem report_of_spreadSource :
    denseSource.Alike (· == .comment) spreadSource ∧ denseSource.hasFault = false ∧
      spreadSource.hasFault = false ∧
      Report.ofTree "A.tsx" denseSource = Report.ofTree "A.tsx" spreadSource := by
  have hfiles : denseSource.Alike (· == .comment) spreadSource ∧ denseSource.hasFault = false ∧
      spreadSource.hasFault = false := by
    simp only [denseSource, spreadSource, Glyph.ofText_append]
    decide +kernel
  rcases hfiles with ⟨alike, sound, sound'⟩
  exact ⟨alike, sound, sound', report_of_alike alike sound sound'⟩

/-- A file in which a method with the computed name `name` sets the state. -/
def computedSource (name : String) : Tree := Grammar.treeOf .markup <| .ofGlyphs <| Glyph.ofText <|
  "export default function A()\x7bconst [v,s]=useState();const o=\x7b" ++ name ++
    "()\x7bs(1)\x7d\x7d;return <p/>\x7d"

/-- The blanks within a computed name show in what comes of an analysis, although they do not count
in the name of a tag. -/
theorem report_of_computedSource :
    (computedSource "[k]").hasFault = false ∧ (computedSource "[ k ]").hasFault = false ∧
      Tree.AlikeBy Tree.SameTags (· == .comment) (computedSource "[k]") (computedSource "[ k ]") ∧
      Report.ofTree "A.tsx" (computedSource "[k]") ≠ Report.ofTree "A.tsx" (computedSource "[ k ]") := by
  have hmap : (computedSource "[k]").hasFault = false ∧ (computedSource "[ k ]").hasFault = false ∧
      Tree.AlikeBy Tree.SameTags (· == .comment) (computedSource "[k]") (computedSource "[ k ]") ∧
      (Report.ofTree "A.tsx" (computedSource "[k]")).outcome.toOption.map (·.eventToSetterMap) ≠
        (Report.ofTree "A.tsx" (computedSource "[ k ]")).outcome.toOption.map
          (·.eventToSetterMap) := by
    simp only [computedSource, Glyph.ofText_append]
    decide +kernel
  rcases hmap with ⟨sound, sound', alike, hmap⟩
  exact ⟨sound, sound', alike, fun h => hmap (by rw [h])⟩

end Analysis

end SuiteDraft
