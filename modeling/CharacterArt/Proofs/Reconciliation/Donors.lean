import CharacterArt.Proofs.Reconciliation.Memory
import Mathlib.Data.List.Sort

/-!
# The search for a donor

The variants of an output are gone through in a fixed order: those in its own directory first, then by
path.  The first one that is not opaque is the donor.  On the way the tool is asked of each variant
of which nothing is remembered.

## Main Definitions

* `Nearer` — the order in which variants are tried
* `Asks` — what a search asks the tool, and when
* `Mending.Ends` — a part of the work that always ends

## Main Results

* `mem_of_nearer` — what stands before a candidate is tried before it
* `ends_tryAll` — a tool that answers brings a reconciliation to its end
* `asks_of_firstDonor` — what a search learns, it asked the tool
* `Asks.unique` — a search asks of an output once
* `exists_split_of_firstDonor` — the candidates before the donor count as opaque
-/

namespace CharacterArt.Reconciliation

variable {σ α β : Type} {tools : Toolchain σ} {outputs : List OutputFile} {o target donor : OutputFile}
  {s s' : State σ} {w w' : World σ} {path : String} {paths mended : List String} {answer : Bool}
  {attempt : Attempt}

/-! ### The order of candidates -/

/-- One variant of an output stands before another one: it is in the directory of the output and the
other one is not, or it has the lesser path where that makes no difference. -/
def Nearer (target a b : OutputFile) : Prop :=
  (directoryOf a.relative = directoryOf target.relative ∧
    directoryOf b.relative ≠ directoryOf target.relative) ∨
  ((directoryOf a.relative = directoryOf target.relative ↔
    directoryOf b.relative = directoryOf target.relative) ∧ a.relative < b.relative)

theorem candidateLe_iff {directory : String} {a b : OutputFile} :
    candidateLe directory a b = true ↔
      (directoryOf a.relative = directory ∧ directoryOf b.relative ≠ directory) ∨
      ((directoryOf a.relative = directory ↔ directoryOf b.relative = directory) ∧
        a.relative ≤ b.relative) := by
  unfold candidateLe
  by_cases ha : directoryOf a.relative = directory <;>
    by_cases hb : directoryOf b.relative = directory <;> simp [ha, hb]

theorem candidateLe_trans (directory : String) (a b c : OutputFile)
    (hab : candidateLe directory a b = true) (hbc : candidateLe directory b c = true) :
    candidateLe directory a c = true := by
  rw [candidateLe_iff] at hab hbc ⊢
  rcases hab with ⟨ha, hb⟩ | ⟨hab, hle⟩
  · rcases hbc with ⟨hb', -⟩ | ⟨hbc, -⟩
    · exact absurd hb' hb
    · exact .inl ⟨ha, fun hc => hb (hbc.mpr hc)⟩
  · rcases hbc with ⟨hb, hc⟩ | ⟨hbc, hle'⟩
    · exact .inl ⟨hab.mpr hb, hc⟩
    · exact .inr ⟨hab.trans hbc, String.le_trans hle hle'⟩

theorem candidateLe_total (directory : String) (a b : OutputFile) :
    (candidateLe directory a b || candidateLe directory b a) = true := by
  rw [Bool.or_eq_true, candidateLe_iff, candidateLe_iff]
  by_cases ha : directoryOf a.relative = directory <;>
    by_cases hb : directoryOf b.relative = directory <;>
    simp [ha, hb, String.le_total]

/-- Candidates are tried in order. -/
theorem pairwise_candidates (outputs : List OutputFile) (target : OutputFile) :
    (candidates outputs target).Pairwise fun a b =>
      candidateLe (directoryOf target.relative) a b = true :=
  List.pairwise_mergeSort (candidateLe_trans _) (candidateLe_total _) _

/-- The order of candidates is found by inserting one after the other. -/
theorem candidates_eq_insertionSort (outputs : List OutputFile) (target : OutputFile) :
    candidates outputs target =
      (outputs.filter fun o => o.relative != target.relative && o.key == target.key).insertionSort
        fun a b => candidateLe (directoryOf target.relative) a b = true := by
  unfold candidates
  induction outputs.filter fun o => o.relative != target.relative && o.key == target.key with
  | nil => exact List.mergeSort_nil
  | cons o rest ih =>
      have hpairwise := List.pairwise_mergeSort (candidateLe_trans (directoryOf target.relative))
        (candidateLe_total _) (o :: rest)
      obtain ⟨front, back, hsorted, hrest, hfront⟩ := List.mergeSort_cons
        (candidateLe_trans (directoryOf target.relative)) (candidateLe_total _) o rest
      rw [hsorted] at hpairwise ⊢
      have hback := (List.pairwise_cons.mp (List.pairwise_append.mp hpairwise).2.1).1
      rw [List.insertionSort_cons_eq_take_drop, ← ih, hrest,
        List.takeWhile_append_of_pos (by simpa using hfront),
        List.dropWhile_append_of_pos (by simpa using hfront)]
      cases back with
      | nil => simp
      | cons p others => simp [hback p List.mem_cons_self]

/-- What stands before a candidate is tried before it. -/
theorem mem_of_nearer {front back : List OutputFile} {a : OutputFile}
    (hsplit : candidates outputs target = front ++ donor :: back)
    (ha : a ∈ candidates outputs target) (hnearer : Nearer target a donor) : a ∈ front := by
  have hpairwise := pairwise_candidates outputs target
  rw [hsplit] at ha hpairwise
  have hnot : ¬ candidateLe (directoryOf target.relative) donor a = true := by
    rw [candidateLe_iff]
    rintro (⟨hd, ha'⟩ | ⟨hsame, hle⟩)
    · rcases hnearer with ⟨hin, -⟩ | ⟨hsame, -⟩
      · exact ha' hin
      · exact ha' (hsame.mpr hd)
    · rcases hnearer with ⟨hin, hout⟩ | ⟨-, hlt⟩
      · exact hout (hsame.mpr hin)
      · exact String.not_le.mpr hlt hle
  rcases List.mem_append.mp ha with ha | ha
  · exact ha
  · rcases List.mem_cons.mp ha with rfl | hback
    · exact absurd (by simp [candidateLe_iff]) hnot
    · exact absurd ((List.pairwise_cons.mp (List.pairwise_append.mp hpairwise).2.1).1 a hback) hnot

/-! ### Tools that answer -/

namespace Mending

/-- A part of the work ends in every state. -/
def Ends (x : Mending σ α) : Prop :=
  ∀ s, ∃ a s', x.run.run s = (.ok a, s')

theorem ends_pure (a : α) : (pure a : Mending σ α).Ends :=
  fun s => ⟨a, s, rfl⟩

/-- **Work in two parts ends if both parts do.** -/
theorem Ends.bind {x : Mending σ α} {f : α → Mending σ β} (hx : x.Ends) (hf : ∀ a, (f a).Ends) :
    (x >>= f).Ends := by
  intro s
  obtain ⟨a, middle, ha⟩ := hx s
  obtain ⟨b, s', hb⟩ := hf a middle
  refine ⟨b, s', ?_⟩
  rw [run_bind, ha]
  exact hb

end Mending

section Ends

variable (h : tools.Answers)

include h

theorem ends_isOpaque (o : OutputFile) : (isOpaque tools o).Ends := by
  intro s
  rw [run_isOpaque]
  split
  · next found _ => exact ⟨found, s, rfl⟩
  · split
    · exact ⟨_, _, rfl⟩
    · exact ⟨_, _, rfl⟩
    · next stop w hnot hprobe =>
        obtain ⟨e, rfl⟩ := h.probe o.path s.world stop (by rw [hprobe])
        exact absurd rfl (hnot e)

theorem ends_firstDonor (os : List OutputFile) : (firstDonor tools os).Ends := by
  induction os with
  | nil => exact Mending.ends_pure none
  | cons o rest ih =>
      refine (ends_isOpaque h o).bind fun found => ?_
      cases found with
      | true => exact ih
      | false => exact Mending.ends_pure _

theorem ends_mend (target donor : OutputFile) : (mend tools target donor).Ends := by
  intro s
  rw [run_mend]
  split
  · exact ⟨_, _, rfl⟩
  · exact ⟨_, _, rfl⟩
  · next stop w hnot hmerge =>
      obtain ⟨e, rfl⟩ := answers_mergeInPlace h target.path donor.path s.world stop w hmerge
      exact absurd rfl (hnot e)

theorem ends_tryTarget (outputs : List OutputFile) (path : String) :
    (tryTarget tools outputs path).Ends := by
  unfold tryTarget
  split
  · exact Mending.ends_pure _
  · refine (ends_firstDonor h _).bind fun found => ?_
    cases found with
    | none => exact Mending.ends_pure _
    | some donor =>
        refine (ends_mend h _ donor).bind fun worked => ?_
        cases worked <;> exact Mending.ends_pure _

/-- **A tool that answers brings a reconciliation to its end.** -/
theorem ends_tryAll (outputs : List OutputFile) (paths : List String) :
    (tryAll tools outputs paths).Ends := by
  induction paths with
  | nil => exact Mending.ends_pure _
  | cons path rest ih =>
      exact (ends_tryTarget h outputs path).bind fun attempt => ih.bind fun _ =>
        Mending.ends_pure _

end Ends

/-! ### Asking -/

/-- In the search for the first donor among some outputs it is asked in a certain world whether one of
them is opaque. -/
inductive Asks (tools : Toolchain σ) : List OutputFile → State σ → OutputFile → World σ → Prop where
  | now {o : OutputFile} {rest : List OutputFile} {s : State σ}
      (hnew : s.opacity[o.relative]? = none) : Asks tools (o :: rest) s o s.world
  | later {o p : OutputFile} {rest : List OutputFile} {s s' : State σ} {v : World σ}
      (hsolid : (isOpaque tools o).run.run s = (.ok true, s')) (h : Asks tools rest s' p v) :
      Asks tools (o :: rest) s p v

/-- Only candidates are asked about. -/
theorem Asks.mem {os : List OutputFile} {v : World σ} (h : Asks tools os s o v) : o ∈ os := by
  induction h with
  | now => exact List.mem_cons_self
  | later hsolid h ih => exact List.mem_cons_of_mem _ ih

/-- The files are as they were when the search began. -/
theorem Asks.disk_eq (htidy : tools.Tidy) {os : List OutputFile} {v : World σ}
    (h : Asks tools os s o v) : v.disk = s.world.disk := by
  induction h with
  | now => rfl
  | later hsolid h ih =>
      rcases isOpaque_cases htidy hsolid with ⟨rfl, -⟩ | ⟨-, -, hdisk, -⟩
      · exact ih
      · exact ih.trans hdisk

/-- **What a search learns, it asked the tool.** -/
theorem asks_of_firstDonor (htidy : tools.Tidy) {os : List OutputFile} {found : Option OutputFile}
    {key : String} (hrun : (firstDonor tools os).run.run s = (.ok found, s'))
    (hkey : s'.opacity[key]? = some answer) :
    s.opacity[key]? = some answer ∨ ∃ o v, o.relative = key ∧ Asks tools os s o v ∧
      verdict? (tools.probe o.path v).1 = some answer := by
  induction os generalizing s with
  | nil =>
      cases hrun
      exact .inl hkey
  | cons o rest ih =>
      obtain ⟨one, middle, hfirst, hrest⟩ := Mending.exists_of_run_bind hrun
      -- what is known of the first candidate was known before, or it is asked now
      have hmiddle : middle.opacity[key]? = some answer → s.opacity[key]? = some answer ∨
          ∃ p v, p.relative = key ∧ Asks tools (o :: rest) s p v ∧
            verdict? (tools.probe p.path v).1 = some answer := by
        intro hkey
        rcases isOpaque_cases htidy hfirst with ⟨rfl, -⟩ | ⟨hnone, hinsert, -, hverdict⟩
        · exact .inl hkey
        · rw [hinsert, Std.TreeMap.getElem?_insert] at hkey
          split at hkey
          · next heq =>
              cases hkey
              exact .inr ⟨o, s.world, Std.compare_eq_iff_eq.mp heq, .now hnone, hverdict⟩
          · exact .inl hkey
      cases one with
      | true =>
          rcases ih hrest with hkey | ⟨p, v, hp, hasks, hverdict⟩
          · exact hmiddle hkey
          · exact .inr ⟨p, v, hp, .later hfirst hasks, hverdict⟩
      | false =>
          cases hrest
          exact hmiddle hkey

/-- What is asked is not known before. -/
theorem Asks.not_known (htidy : tools.Tidy) {os : List OutputFile} {v : World σ}
    (h : Asks tools os s o v) : s.opacity[o.relative]? = none := by
  induction h with
  | now hnew => exact hnew
  | @later first p rest s s' v hsolid h ih =>
      have hlearns := (learns_isOpaque htidy (List.mem_singleton_self first) hsolid).1
      match hknown : s.opacity[p.relative]? with
      | none => rfl
      | some answer =>
          rw [hlearns.keeps hknown] at ih
          cases ih

/-- What is asked in a search is known after it. -/
theorem Asks.known (htidy : tools.Tidy) {os : List OutputFile} {v : World σ}
    {found : Option OutputFile} (h : Asks tools os s o v)
    (hrun : (firstDonor tools os).run.run s = (.ok found, s')) :
    s'.opacity[o.relative]? ≠ none := by
  induction h with
  | @now o rest s hnew =>
      obtain ⟨one, middle, hfirst, hrest⟩ := Mending.exists_of_run_bind hrun
      have hknown := (learns_isOpaque htidy (List.mem_singleton_self o) hfirst).2
      cases one with
      | true =>
          rw [(learns_firstDonor htidy (fun _ => id) hrest).1.keeps hknown]
          exact Option.some_ne_none _
      | false =>
          cases hrest
          rw [hknown]
          exact Option.some_ne_none _
  | later hsolid h ih =>
      obtain ⟨one, middle, hfirst, hrest⟩ := Mending.exists_of_run_bind hrun
      rw [hsolid] at hfirst
      cases hfirst
      exact ih hrest

/-- **A search asks of an output once.** -/
theorem Asks.unique (htidy : tools.Tidy) {os : List OutputFile} {v v' : World σ}
    (h : Asks tools os s o v) (h' : Asks tools os s o v') : v = v' := by
  induction h with
  | @now o rest s hnew =>
      cases h' with
      | now => rfl
      | later hsolid h' =>
          have hknown := (learns_isOpaque htidy (List.mem_singleton_self o) hsolid).2
          rw [h'.not_known htidy] at hknown
          cases hknown
  | @later first p rest s s' v hsolid h ih =>
      cases h' with
      | now hnew =>
          have hknown := (learns_isOpaque htidy (List.mem_singleton_self first) hsolid).2
          rw [h.not_known htidy] at hknown
          cases hknown
      | later hsolid' h' =>
          rw [hsolid] at hsolid'
          cases hsolid'
          exact ih h'

/-- **The candidates before the donor count as opaque.** -/
theorem exists_split_of_firstDonor (htidy : tools.Tidy) {os : List OutputFile}
    (hrun : (firstDonor tools os).run.run s = (.ok (some donor), s')) :
    ∃ front back, os = front ++ donor :: back ∧
      ∀ o ∈ front, s'.opacity[o.relative]? = some true := by
  induction os generalizing s with
  | nil => cases hrun
  | cons o rest ih =>
      obtain ⟨one, middle, hfirst, hrest⟩ := Mending.exists_of_run_bind hrun
      cases one with
      | true =>
          obtain ⟨front, back, rfl, hfront⟩ := ih hrest
          refine ⟨o :: front, back, rfl, fun p hp => ?_⟩
          rcases List.mem_cons.mp hp with rfl | hp
          · have hknown := (learns_isOpaque htidy (List.mem_singleton_self p) hfirst).2
            exact (learns_firstDonor htidy (fun _ => id) hrest).1.keeps hknown
          · exact hfront p hp
      | false =>
          cases hrest
          exact ⟨[], rest, rfl, fun p hp => absurd hp List.not_mem_nil⟩

end CharacterArt.Reconciliation
