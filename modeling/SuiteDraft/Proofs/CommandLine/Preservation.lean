import SuiteDraft.Proofs.CommandLine.Deliveries

/-!
# What runs leave as it is

A run that is not to replace test files changes nothing that stands on a disk. Each placement leaves
what is there when it is made, the tests of the same run included, so the whole run does.
-/

namespace SuiteDraft.CommandLine.Generate

open Disk Suite

variable {d : Disk} {r : Request}

theorem gains_deliver (hreplace : r.replace = false) (hlinks : d.NoneDangles) (hdots : d.NoDots)
    {p : Path} (hp : p.Named) (c : Component) :
    d.Gains (r.deliver d (p, c)) (IsTest (r.deliver d (p, c)) p c) := by
  rw [Request.deliver, hreplace]
  split
  · exact .refl d _
  · exact gains_placed hp.anchored hp.noDots_parent hlinks hdots c

/-- Deliveries add the tests that they deliver, if anything, and folders. -/
theorem gains_deliveries (hreplace : r.replace = false) (hlinks : d.NoneDangles) (hdots : d.NoDots)
    (deliveries : List (Path × Component)) (hnamed : ∀ x ∈ deliveries, x.1.Named) :
    d.Gains (deliveries.foldl r.deliver d) fun names bytes =>
      ∃ x ∈ deliveries, IsTest (deliveries.foldl r.deliver d) x.1 x.2 names bytes := by
  induction deliveries generalizing d with
  | nil => exact .refl d _
  | cons x rest ih =>
    have hfirst := gains_deliver hreplace hlinks hdots (hnamed x List.mem_cons_self) x.2
    have hrest := ih (hfirst.noneDangles hlinks) (hfirst.noDots hdots)
      fun y hy => hnamed y (List.mem_cons_of_mem _ hy)
    refine (hfirst.mono fun names bytes htest => ?_).trans (hrest.mono fun names bytes htest => ?_)
    · exact ⟨x, List.mem_cons_self, htest.mono hrest.toGrows⟩
    · obtain ⟨y, hy, htest⟩ := htest
      exact ⟨y, List.mem_cons_of_mem _ hy, htest⟩

/-- A run that is not to replace anything, on a disk where no link dangles, leaves all that stands there
as it is, whatever comes of the run. What is new are folders, and the tests of files that
it was asked about and could analyse, each in its place; and where tests are only shown, nothing is. -/
theorem after_keeps (hd : d.Sound) (hlinks : d.NoneDangles) (arguments : List String)
    (hreplace : ∀ r, request? arguments = some r → r.replace = false) :
    (∀ p bytes, d.read p = .ok bytes → (after d arguments).read p = .ok bytes) ∧
      (∀ names e, d.bare? names = some e → (after d arguments).bare? names = some e) ∧
      (∀ names e, d.bare? names = none → (after d arguments).bare? names = some e →
        e = .folder [] ∨
          ∃ r p c bytes, request? arguments = some r ∧ p ∈ r.subjects d ∧
            (Report.ofFile d p.toString).outcome = .ok c ∧ e = .file bytes ∧
            IsTest (after d arguments) p c names bytes) ∧
      ∀ r, request? arguments = some r → r.showsTests = true → after d arguments = d := by
  cases hrequest : request? arguments with
  | none =>
    rw [after_of_none hrequest]
    refine ⟨fun _ _ => id, fun _ _ => id, fun names e hnone hsome => ?_, fun _ h => nomatch h⟩
    rw [hnone] at hsome
    cases hsome
  | some r =>
    rw [after_of_some hrequest, after_eq_foldl]
    have hgains := gains_deliveries (hreplace r hrequest) hlinks hd.noDots (r.deliveries d)
      fun x hx => Request.named_of_mem_subjects hd ((Request.mem_deliveries_iff hd).mp hx).1
    refine ⟨fun p bytes => hgains.read, hgains.keeps, fun names e hnone hsome => ?_, ?_⟩
    · refine (hgains.gained names e hnone hsome).imp_right ?_
      rintro ⟨bytes, he, x, hx, htest⟩
      obtain ⟨hsubject, houtcome⟩ := (Request.mem_deliveries_iff hd).mp hx
      exact ⟨r, x.1, x.2, bytes, rfl, hsubject, houtcome, he, htest⟩
    · rintro r' hr' hshows
      cases hr'
      refine List.foldlRecOn (motive := fun d' => d' = d) _ _ rfl fun d' hd' x _ => ?_
      rw [Request.deliver, if_pos hshows, hd']

/-- A folder of two components, one of which cannot be parsed, whose tests lie behind a link; for one of
them there is a file already. Beside them stands a link that leads to itself. -/
def linkedTests : Disk where
  root := [
    ("p", .folder [
      ("A.tsx", .file (bytesOf "export default function A(){return <p>a</p>}")),
      ("B.tsx", .file (bytesOf "(")),
      ("__tests__", .link "../t"),
      ("self", .link "self")]),
    ("t", .folder [("A.test.tsx", .file (bytesOf "mine"))])]

theorem after_keeps_linkedTests :
    linkedTests.read (.ofString "/p/__tests__/A.test.tsx") = .ok (bytesOf "mine") ∧
      (after linkedTests ["/p", "--workers", "2"]).read (.ofString "/p/__tests__/A.test.tsx") =
        .ok (bytesOf "mine") ∧
      after linkedTests ["/p", "--stdout"] = linkedTests := by
  have hsound : linkedTests.Sound := sound_of_places (by decide +kernel) (by decide +kernel)
  have hlinks : linkedTests.NoneDangles := noneDangles_of_places (by decide +kernel)
  have hmine : linkedTests.read (.ofString "/p/__tests__/A.test.tsx") = .ok (bytesOf "mine") := by
    decide +kernel
  have hwrites : request? ["/p", "--workers", "2"] = some { path := "/p", workers := 2 } := by
    decide +kernel
  have hshows : request? ["/p", "--stdout"] = some { path := "/p", showsTests := true } := by
    decide +kernel
  have hkept := (after_keeps hsound hlinks ["/p", "--workers", "2"] fun r hr => by
    cases hwrites.symm.trans hr
    rfl).1 _ _ hmine
  have hsame := (after_keeps hsound hlinks ["/p", "--stdout"] fun r hr => by
    cases hshows.symm.trans hr
    rfl).2.2.2 _ hshows rfl
  exact ⟨hmine, hkept, hsame⟩

end SuiteDraft.CommandLine.Generate
