import CharacterArt.Proofs.Merge.InOrder
import CharacterArt.Proofs.Reconciliation.Attempts
import CharacterArt.Proofs.Reconciliation.Merging
import CharacterArt.Proofs.Reconciliation.Walk

/-!
# What a reconciliation remembers

A reconciliation asks at most once whether an output is opaque and remembers the answer.  An answer
that is remembered is right as long as the output is not mended, and a mended output counts as not
opaque.  So if all variants of an output were opaque, none of them can serve as a donor later: an
output with the same base finds only these variants and the output itself.

## Main Definitions

* `Toolchain.IsTruthful` — whether a picture is opaque depends on the picture alone
* `Toolchain.Judges` — what the tool says of a picture
* `Reconciliation.Learns` — a state in which more is remembered
* `Reconciliation.Tried` — what an attempt on an output can do
* `Reconciliation.Remembers` — what is remembered is right

## Main Results

* `Reconciliation.tried_of_tryTarget` — every attempt is one of four
* `Reconciliation.Tried.evolves`, `Reconciliation.evolves_tryAll` — what attempts change
* `Reconciliation.Remembers.tried` — an attempt keeps what is remembered right
* `Reconciliation.judges_of_noDonor` — the variants of an output without a donor stay opaque
* `Reconciliation.exists_tryAll_of_judges` — outputs whose variants are opaque are left as they are
-/

namespace CharacterArt

/-! ### Judging pictures -/

/-- Whether a picture is opaque depends on what stands under its path alone, and an answer is
right. -/
structure Toolchain.IsTruthful {σ : Type} (tools : Toolchain σ) : Prop where
  probe_congr : ∀ image (w w' : World σ), w'.disk.read image = w.disk.read image →
    (tools.probe image w').1 = (tools.probe image w).1
  agrees : ∀ image (w : World σ) answer, (tools.probe image w).1 = .ok answer →
    ∃ picture, Files.readPicture w.disk image = .ok picture ∧ picture.isOpaque = answer

/-- What an answer to whether a picture is opaque counts as. -/
def Reconciliation.verdict? : Except Stop Bool → Option Bool
  | .ok answer => some answer
  | .error (.failed _) => some true
  | .error (.broke _) | .error .stalled => none

/-- What the tool says of the picture under a path, in whatever state it is. -/
def Toolchain.Judges {σ : Type} (tools : Toolchain σ) (d : Files) (path : String) (answer : Bool) :
    Prop :=
  ∀ w : World σ, w.disk.read path = d.read path →
    Reconciliation.verdict? (tools.probe path w).1 = some answer

namespace Toolchain

variable {σ : Type} {tools : Toolchain σ} {d d' : Files} {path : String} {answer : Bool}

/-- The tool that works in process looks at the picture. -/
theorem isTruthful_inProcess (σ : Type) : (Toolchain.inProcess : Toolchain σ).IsTruthful where
  probe_congr image w w' h := by
    have hread : InProcess.probe image w'.disk = InProcess.probe image w.disk := by
      unfold InProcess.probe Files.readPicture Files.inspectPicture
      rw [h]
    unfold inProcess InProcess.reading
    dsimp only
    rw [hread]
    split <;> rfl
  agrees image w answer h := by
    unfold inProcess InProcess.reading at h
    dsimp only at h
    split at h
    · next a hprobe =>
        cases h
        obtain ⟨picture, hpicture, hsolid⟩ := map_eq_ok_iff.mp hprobe
        exact ⟨picture, hpicture, hsolid⟩
    · cases h

theorem IsTruthful.judges (h : tools.IsTruthful) {w : World σ}
    (hanswer : Reconciliation.verdict? (tools.probe path w).1 = some answer) :
    tools.Judges w.disk path answer := by
  intro w' hread
  rwa [h.probe_congr path w w' hread]

/-- What a truthful tool says is not opaque is a picture that is not. -/
theorem IsTruthful.exists_picture (h : tools.IsTruthful) {w : World σ}
    (hjudges : tools.Judges w.disk path false) :
    ∃ picture, Files.readPicture w.disk path = .ok picture ∧ picture.isOpaque = false := by
  have hverdict := hjudges w rfl
  have hagrees := h.agrees path w
  generalize (tools.probe path w).1 = result at hverdict hagrees
  cases result with
  | ok answer =>
      cases hverdict
      exact hagrees false rfl
  | error stop => cases stop <;> cases hverdict

theorem Judges.congr (h : tools.Judges d path answer) (hread : d'.read path = d.read path) :
    tools.Judges d' path answer :=
  fun w hw => h w (hw.trans hread)

end Toolchain

namespace Reconciliation

variable {σ : Type} {tools other : Toolchain σ} {outputs : List OutputFile} {o u : OutputFile}
  {s s' s'' : State σ} {path : String} {attempt : Attempt} {mended : List String}

/-! ### Learning -/

/-- In another state more is remembered of the same files: what the tool said of them. -/
structure Learns (tools : Toolchain σ) (outputs : List OutputFile) (s s' : State σ) : Prop where
  disk_eq : s'.world.disk = s.world.disk
  keeps : ∀ {key : String} {answer : Bool},
    s.opacity[key]? = some answer → s'.opacity[key]? = some answer
  learned : ∀ {key : String} {answer : Bool}, s'.opacity[key]? = some answer →
    s.opacity[key]? = some answer ∨ ∃ o ∈ outputs, o.relative = key ∧
      ∃ w : World σ, w.disk = s.world.disk ∧ verdict? (tools.probe o.path w).1 = some answer

theorem Learns.refl (tools : Toolchain σ) (outputs : List OutputFile) (s : State σ) :
    Learns tools outputs s s :=
  ⟨rfl, id, .inl⟩

theorem Learns.trans (h : Learns tools outputs s s') (h' : Learns tools outputs s' s'') :
    Learns tools outputs s s'' where
  disk_eq := h'.disk_eq.trans h.disk_eq
  keeps hkey := h'.keeps (h.keeps hkey)
  learned hkey := by
    rcases h'.learned hkey with hkey | hnew
    · exact h.learned hkey
    · rw [h.disk_eq] at hnew
      exact .inr hnew

/-- **Whether an output is opaque is known, or it is asked.** -/
theorem isOpaque_cases (htidy : tools.Tidy) {answer : Bool}
    (hrun : (isOpaque tools o).run.run s = (.ok answer, s')) :
    s' = s ∧ s.opacity[o.relative]? = some answer ∨
      s.opacity[o.relative]? = none ∧ s'.opacity = s.opacity.insert o.relative answer ∧
        s'.world.disk = s.world.disk ∧ verdict? (tools.probe o.path s.world).1 = some answer := by
  rw [run_isOpaque] at hrun
  split at hrun
  · next found hfound =>
      cases hrun
      exact .inl ⟨rfl, hfound⟩
  · next hnone =>
      have hdisk := htidy.probe o.path s.world
      split at hrun
      · next found w hprobe =>
          cases hrun
          rw [hprobe] at hdisk ⊢
          exact .inr ⟨hnone, rfl, hdisk, rfl⟩
      · next e w hprobe =>
          cases hrun
          rw [hprobe] at hdisk ⊢
          exact .inr ⟨hnone, rfl, hdisk, rfl⟩
      · cases hrun

/-- **Asking whether an output is opaque makes the answer known.** -/
theorem learns_isOpaque (htidy : tools.Tidy) (ho : o ∈ outputs) {answer : Bool}
    (hrun : (isOpaque tools o).run.run s = (.ok answer, s')) :
    Learns tools outputs s s' ∧ s'.opacity[o.relative]? = some answer := by
  rcases isOpaque_cases htidy hrun with ⟨rfl, hknown⟩ | ⟨hnone, hinsert, hdisk, hverdict⟩
  · exact ⟨Learns.refl tools outputs _, hknown⟩
  refine ⟨⟨hdisk, fun {key answer} hkey => ?_, fun {key answer} hkey => ?_⟩, ?_⟩
  · rw [hinsert, Std.TreeMap.getElem?_insert, if_neg, hkey]
    intro heq
    rw [Std.compare_eq_iff_eq] at heq
    rw [heq, hkey] at hnone
    cases hnone
  · rw [hinsert, Std.TreeMap.getElem?_insert] at hkey
    split at hkey
    · next heq =>
        cases hkey
        exact .inr ⟨o, ho, Std.compare_eq_iff_eq.mp heq, s.world, rfl, hverdict⟩
    · exact .inl hkey
  · rw [hinsert, Std.TreeMap.getElem?_insert_self]

/-- **Looking for a donor makes known which outputs are opaque.** -/
theorem learns_firstDonor (htidy : tools.Tidy) {os : List OutputFile}
    (hos : ∀ o ∈ os, o ∈ outputs) {donor : Option OutputFile}
    (hrun : (firstDonor tools os).run.run s = (.ok donor, s')) : Learns tools outputs s s' ∧
      (donor = none → ∀ o ∈ os, s'.opacity[o.relative]? = some true) ∧
      ∀ found, donor = some found → found ∈ os ∧ s'.opacity[found.relative]? = some false := by
  induction os generalizing s with
  | nil =>
      cases hrun
      exact ⟨Learns.refl tools outputs _, fun _ o ho => absurd ho List.not_mem_nil, nofun⟩
  | cons o rest ih =>
      obtain ⟨answer, middle, hfirst, hrest⟩ := Mending.exists_of_run_bind hrun
      obtain ⟨hlearns, hknown⟩ := learns_isOpaque htidy (hos o List.mem_cons_self) hfirst
      cases answer with
      | true =>
          obtain ⟨hlearns', hnone, hsome⟩ := ih (fun p hp => hos p (List.mem_cons_of_mem o hp)) hrest
          refine ⟨hlearns.trans hlearns', fun hdonor p hp => ?_, fun found hfound => ?_⟩
          · rcases List.mem_cons.mp hp with rfl | hp
            · exact hlearns'.keeps hknown
            · exact hnone hdonor p hp
          · exact ⟨List.mem_cons_of_mem o (hsome found hfound).1, (hsome found hfound).2⟩
      | false =>
          cases hrest
          refine ⟨hlearns, nofun, fun found hfound => ?_⟩
          cases hfound
          exact ⟨List.mem_cons_self, hknown⟩

/-! ### Attempts -/

theorem mem_candidates {target : OutputFile} : o ∈ candidates outputs target ↔
    o ∈ outputs ∧ o.relative ≠ target.relative ∧ o.key = target.key := by
  rw [candidates, List.mem_mergeSort, List.mem_filter, Bool.and_eq_true, bne_iff_ne, beq_iff_eq]

/-- What an attempt on the output of a path can do. -/
inductive Tried (tools : Toolchain σ) (outputs : List OutputFile) (path : String) (s : State σ) :
    Attempt → State σ → Prop where
  | missing (h : ∀ o ∈ outputs, o.relative ≠ path) : Tried tools outputs path s .missing s
  | noDonor {target : OutputFile} {s' : State σ} (htarget : target ∈ outputs)
      (hpath : target.relative = path) (hlearns : Learns tools outputs s s')
      (hvariants : ∀ o ∈ candidates outputs target, s'.opacity[o.relative]? = some true) :
      Tried tools outputs path s .noDonor s'
  | merged {target donor : OutputFile} {middle : State σ} {w : World σ} (htarget : target ∈ outputs)
      (hpath : target.relative = path) (hlearns : Learns tools outputs s middle)
      (hdonor : donor ∈ candidates outputs target)
      (hknown : middle.opacity[donor.relative]? = some false)
      (hmerge : (mergeInPlace tools scratch target.path donor.path).run.run middle.world =
        (.ok (), w)) :
      Tried tools outputs path s (.merged donor.relative)
        ⟨w, middle.opacity.insert target.relative false⟩
  | refused {target donor : OutputFile} {middle : State σ} {w : World σ} {e : Error}
      (htarget : target ∈ outputs) (hpath : target.relative = path)
      (hlearns : Learns tools outputs s middle) (hdonor : donor ∈ candidates outputs target)
      (hmerge : (mergeInPlace tools scratch target.path donor.path).run.run middle.world =
        (.error (.failed e), w)) :
      Tried tools outputs path s (.refused donor.relative) { middle with world := w }

/-- **Every attempt is one of four.** -/
theorem tried_of_tryTarget (htidy : tools.Tidy)
    (hrun : (tryTarget tools outputs path).run.run s = (.ok attempt, s')) :
    Tried tools outputs path s attempt s' := by
  have hcandidates : ∀ target : OutputFile, ∀ o ∈ candidates outputs target, o ∈ outputs :=
    fun target o ho => (mem_candidates.mp ho).1
  cases attempted_of_tryTarget hrun with
  | missing h => exact .missing h
  | noDonor htarget hpath hfind =>
      obtain ⟨hlearns, hnone, -⟩ := learns_firstDonor htidy (hcandidates _) hfind
      exact .noDonor htarget hpath hlearns (hnone rfl)
  | merged htarget hpath hfind hmerge =>
      obtain ⟨hlearns, -, hsome⟩ := learns_firstDonor htidy (hcandidates _) hfind
      obtain ⟨hcandidate, hknown⟩ := hsome _ rfl
      exact .merged htarget hpath hlearns hcandidate hknown hmerge
  | refused htarget hpath hfind hmerge =>
      obtain ⟨hlearns, -, hsome⟩ := learns_firstDonor htidy (hcandidates _) hfind
      exact .refused htarget hpath hlearns (hsome _ rfl).1 hmerge

/-- An output that is missing is none of those that there are. -/
theorem relative_ne_of_missing (htidy : tools.Tidy) {paths : List String}
    {attempts : List (String × Attempt)}
    (hrun : (tryAll tools outputs paths).run.run s = (.ok attempts, s'))
    (hattempt : (path, .missing) ∈ attempts) : ∀ o ∈ outputs, o.relative ≠ path := by
  induction paths generalizing s attempts with
  | nil =>
      cases hrun
      exact absurd hattempt List.not_mem_nil
  | cons first rest ih =>
      obtain ⟨attempt, middle, hfirst, hrun⟩ := Mending.exists_of_run_bind hrun
      obtain ⟨others, last, hrest, hrun⟩ := Mending.exists_of_run_bind hrun
      cases hrun
      rcases List.mem_cons.mp hattempt with heq | hattempt
      · obtain ⟨rfl, rfl⟩ := Prod.mk.inj heq
        cases tried_of_tryTarget htidy hfirst with
        | missing h => exact h
      · exact ih hrest hattempt

/-! ### What attempts change -/

/-- The outputs of a list that have certain paths. -/
def among (outputs : List OutputFile) (paths : List String) (path : String) : Prop :=
  ∃ o ∈ outputs, o.relative ∈ paths ∧ o.path = path

/-- **An attempt writes the output that it is about, or nothing.** -/
theorem Tried.evolves (htidy : tools.Tidy) (hstanding : Standing outputs s.world.disk)
    (hlacks : s.world.disk.Lacks InScratch) (h : Tried tools outputs path s attempt s') :
    s.world.disk.Evolves (producing s.world.disk.cwd (among outputs [path])) s'.world.disk ∧
      s'.world.disk.Lacks InScratch := by
  have hmerge : ∀ {target : OutputFile} {donor : String} {middle : State σ} {w : World σ}
      {result : Except Stop Unit}, target ∈ outputs → target.relative = path →
      Learns tools outputs s middle →
      (mergeInPlace tools scratch target.path donor).run.run middle.world = (result, w) →
      s.world.disk.Evolves (producing s.world.disk.cwd (among outputs [path])) w.disk ∧
        w.disk.Lacks InScratch := by
    intro target donor middle w result htarget hpath hlearns hrun
    have hdisk := hlearns.disk_eq
    obtain ⟨hevolves, hlacks'⟩ := evolves_mergeInPlace htidy (by rwa [hdisk])
      (by rw [hdisk]; exact hstanding.avoids hlacks htarget) hrun
    rw [hdisk] at hevolves
    refine ⟨hevolves.producing ?_, hlacks'⟩
    rintro other rfl
    exact ⟨target, htarget, List.mem_singleton.mpr hpath, rfl⟩
  cases h with
  | missing => exact ⟨Disk.Evolves.refl _ _, hlacks⟩
  | noDonor htarget hpath hlearns hvariants =>
      rw [hlearns.disk_eq]
      exact ⟨Disk.Evolves.refl _ _, hlacks⟩
  | merged htarget hpath hlearns hdonor hknown hrun => exact hmerge htarget hpath hlearns hrun
  | refused htarget hpath hlearns hdonor hrun => exact hmerge htarget hpath hlearns hrun

/-- **Attempts write the outputs that they are about.** -/
theorem evolves_tryAll (htidy : tools.Tidy) {paths : List String} {attempts : List (String × Attempt)}
    (hstanding : Standing outputs s.world.disk) (hlacks : s.world.disk.Lacks InScratch)
    (hrun : (tryAll tools outputs paths).run.run s = (.ok attempts, s')) :
    s.world.disk.Evolves (producing s.world.disk.cwd (among outputs paths)) s'.world.disk ∧
      s'.world.disk.Lacks InScratch := by
  induction paths generalizing s attempts with
  | nil =>
      cases hrun
      exact ⟨Disk.Evolves.refl _ _, hlacks⟩
  | cons path rest ih =>
      obtain ⟨attempt, middle, hfirst, hrun⟩ := Mending.exists_of_run_bind hrun
      obtain ⟨others, last, hrest, hrun⟩ := Mending.exists_of_run_bind hrun
      cases hrun
      obtain ⟨hevolves, hlacks'⟩ := (tried_of_tryTarget htidy hfirst).evolves htidy hstanding hlacks
      obtain ⟨hevolves', hlacks''⟩ := ih (hstanding.evolves hevolves) hlacks' hrest
      rw [hevolves.cwd] at hevolves'
      refine ⟨(hevolves.producing ?_).trans (hevolves'.producing ?_), hlacks''⟩
      · rintro other ⟨o, ho, hpath, rfl⟩
        exact ⟨o, ho, List.mem_cons.mpr (.inl (List.mem_singleton.mp hpath)), rfl⟩
      · rintro other ⟨o, ho, hpath, rfl⟩
        exact ⟨o, ho, List.mem_cons_of_mem path hpath, rfl⟩

/-- **An output that no attempt is about is read as before.** -/
theorem read_eq_of_among {d d' : Files} {paths : List String} (hstanding : Standing outputs d)
    (hd : d.Evolves (producing d.cwd (among outputs paths)) d') (ho : o ∈ outputs)
    (hnot : o.relative ∉ paths) : d'.read o.path = d.read o.path := by
  refine hstanding.read_eq hd ho ?_
  rintro other ⟨p, hp, hpath, rfl⟩ heq
  rw [hstanding.eq_of_place p hp o ho heq] at hpath
  exact hnot hpath

/-! ### Remembering -/

/-- Pictures stand in their places, and what is remembered of them is right, except that a mended
one counts as not opaque. -/
structure Remembers (tools : Toolchain σ) (outputs : List OutputFile) (mended : List String)
    (s : State σ) : Prop where
  standing : Standing outputs s.world.disk
  lacks : s.world.disk.Lacks InScratch
  right : ∀ o ∈ outputs, ∀ answer, s.opacity[o.relative]? = some answer →
    tools.Judges s.world.disk o.path answer ∨ o.relative ∈ mended ∧ answer = false

/-- What is learned is right. -/
theorem Remembers.learn (hs : Remembers tools outputs mended s) (htruthful : tools.IsTruthful)
    (h : Learns tools outputs s s') : Remembers tools outputs mended s' := by
  refine ⟨?_, ?_, fun o ho answer hanswer => ?_⟩
  · rw [h.disk_eq]
    exact hs.standing
  · rw [h.disk_eq]
    exact hs.lacks
  · rw [h.disk_eq]
    rcases h.learned hanswer with hanswer | ⟨p, hp, hkey, w, hdisk, hverdict⟩
    · exact hs.right o ho answer hanswer
    · rw [hs.standing.eq_of_relative p hp o ho hkey] at hverdict
      exact .inl (hdisk ▸ htruthful.judges hverdict)

/-- What an attempt adds to the outputs that are mended. -/
def mendedBy (path : String) : Attempt → List String
  | .merged _ => [path]
  | .missing | .noDonor | .refused _ => []

/-- An attempt mends no other output. -/
theorem not_mem_mendedBy {output : String} (hne : output ≠ path) (h : output ∉ mended) :
    output ∉ mendedBy path attempt ++ mended := by
  rw [List.mem_append, not_or]
  refine ⟨?_, h⟩
  cases attempt with
  | merged donor => exact fun hmem => hne (List.mem_singleton.mp hmem)
  | missing | noDonor | refused donor => exact List.not_mem_nil

/-- **An attempt keeps what is remembered right**, unless a merge fails half way. -/
theorem Remembers.tried (hs : Remembers tools outputs mended s) (htidy : tools.Tidy)
    (htruthful : tools.IsTruthful) (hnot : ∀ donor, attempt ≠ .refused donor)
    (h : Tried tools outputs path s attempt s') :
    Remembers tools outputs (mendedBy path attempt ++ mended) s' := by
  obtain ⟨hevolves, hlacks⟩ := h.evolves htidy hs.standing hs.lacks
  cases h with
  | missing => exact hs
  | noDonor htarget hpath hlearns hvariants => exact hs.learn htruthful hlearns
  | refused => exact absurd rfl (hnot _)
  | @merged target donor middle w htarget hpath hlearns hdonor hknown hrun =>
      refine ⟨hs.standing.evolves hevolves, hlacks, fun o ho answer hanswer => ?_⟩
      dsimp only at hanswer
      rw [Std.TreeMap.getElem?_insert] at hanswer
      split at hanswer
      · next heq =>
          -- the output that was mended
          cases hanswer
          rw [Std.compare_eq_iff_eq, hpath] at heq
          exact .inr ⟨List.mem_append_left _ (List.mem_singleton.mpr heq.symm), rfl⟩
      · next hne =>
          rw [Std.compare_eq_iff_eq, hpath] at hne
          have hread := read_eq_of_among hs.standing hevolves ho
            (fun hmem => hne (List.mem_singleton.mp hmem).symm)
          rcases (hs.learn htruthful hlearns).right o ho answer hanswer with hjudges | ⟨hmem, hfalse⟩
          · rw [hlearns.disk_eq] at hjudges
            exact .inl (hjudges.congr hread)
          · exact .inr ⟨List.mem_append_right _ hmem, hfalse⟩

/-! ### Outputs without a donor -/

/-- All variants of an output are known to be opaque, and the tool does not say otherwise of the
output itself. -/
structure Frozen (tools : Toolchain σ) (outputs : List OutputFile) (u : OutputFile) (s : State σ) :
    Prop where
  variants : ∀ o ∈ candidates outputs u, s.opacity[o.relative]? = some true
  not_judges : ¬ tools.Judges s.world.disk u.path false

/-- **If all variants of an output are known to be opaque, no later attempt changes that**: an output
of the same base would have to find its donor among them. -/
theorem Frozen.tried (hf : Frozen tools outputs u s) (hs : Remembers tools outputs mended s)
    (htidy : tools.Tidy) (htruthful : tools.IsTruthful) (hu : u ∈ outputs)
    (hmended : u.relative ∉ mended) (hne : path ≠ u.relative)
    (hnot : ∀ donor, attempt ≠ .refused donor) (h : Tried tools outputs path s attempt s') :
    Frozen tools outputs u s' := by
  obtain ⟨hevolves, -⟩ := h.evolves htidy hs.standing hs.lacks
  have hread := read_eq_of_among hs.standing hevolves hu
    (fun hmem => hne (List.mem_singleton.mp hmem).symm)
  refine ⟨?_, fun hjudges => hf.not_judges (hjudges.congr hread.symm)⟩
  cases h with
  | missing => exact hf.variants
  | noDonor htarget hpath hlearns hvariants =>
      exact fun o ho => hlearns.keeps (hf.variants o ho)
  | refused => exact absurd rfl (hnot _)
  | @merged target donor middle w htarget hpath hlearns hdonor hknown hrun =>
      obtain ⟨hdonor, hdiffers, hkey⟩ := mem_candidates.mp hdonor
      -- the donor is not opaque, so it is neither a variant of `u` nor `u` itself
      have hbase : target.key ≠ u.key := by
        intro hbase
        by_cases heq : donor.relative = u.relative
        · obtain rfl := hs.standing.eq_of_relative donor hdonor u hu heq
          rcases (hs.learn htruthful hlearns).right donor hu false hknown with hjudges | ⟨hmem, -⟩
          · rw [hlearns.disk_eq] at hjudges
            exact hf.not_judges hjudges
          · exact hmended hmem
        · have hvariant := hlearns.keeps
            (hf.variants donor (mem_candidates.mpr ⟨hdonor, heq, hkey.trans hbase⟩))
          rw [hknown] at hvariant
          cases hvariant
      intro o ho
      obtain ⟨hmem, -, hsame⟩ := mem_candidates.mp ho
      dsimp only
      rw [Std.TreeMap.getElem?_insert, if_neg]
      · exact hlearns.keeps (hf.variants o ho)
      · rw [Std.compare_eq_iff_eq]
        intro heq
        rw [hs.standing.eq_of_relative target htarget o hmem heq, hsame] at hbase
        exact hbase rfl

/-- The variants of an output that are known to be opaque stay so through further attempts. -/
theorem Frozen.tryAll (hf : Frozen tools outputs u s) (hs : Remembers tools outputs mended s)
    (htidy : tools.Tidy) (htruthful : tools.IsTruthful) (hu : u ∈ outputs)
    (hmended : u.relative ∉ mended) {paths : List String} {attempts : List (String × Attempt)}
    (hne : u.relative ∉ paths) (hnot : ∀ a ∈ attempts, ∀ donor, a.2 ≠ .refused donor)
    (hrun : (Reconciliation.tryAll tools outputs paths).run.run s = (.ok attempts, s')) :
    ∀ o ∈ candidates outputs u, tools.Judges s'.world.disk o.path true := by
  induction paths generalizing s attempts mended with
  | nil =>
      cases hrun
      intro o ho
      rcases hs.right o (mem_candidates.mp ho).1 true (hf.variants o ho) with hjudges | ⟨-, hfalse⟩
      · exact hjudges
      · cases hfalse
  | cons path rest ih =>
      obtain ⟨attempt, middle, hfirst, hrun⟩ := Mending.exists_of_run_bind hrun
      obtain ⟨others, last, hrest, hrun⟩ := Mending.exists_of_run_bind hrun
      cases hrun
      obtain ⟨hhead, hrest'⟩ := not_or.mp (mt List.mem_cons.mpr hne)
      have htried := tried_of_tryTarget htidy hfirst
      have hattempt := hnot (path, attempt) List.mem_cons_self
      exact ih (hf.tried hs htidy htruthful hu hmended (Ne.symm hhead) hattempt htried)
        (hs.tried htidy htruthful hattempt htried) (not_mem_mendedBy hhead hmended) hrest'
        (fun a ha => hnot a (List.mem_cons_of_mem _ ha)) hrest

/-- **The variants of an output without a donor are opaque in the end**, unless the output is
transparent: the attempts after it find no donor among them either. -/
theorem judges_of_noDonor (hs : Remembers tools outputs mended s) (htidy : tools.Tidy)
    (htruthful : tools.IsTruthful) (hu : u ∈ outputs) (hmended : u.relative ∉ mended)
    {paths : List String} (hnodup : paths.Nodup) {attempts : List (String × Attempt)}
    (hnot : ∀ a ∈ attempts, ∀ donor, a.2 ≠ .refused donor)
    (hrun : (tryAll tools outputs paths).run.run s = (.ok attempts, s'))
    (hattempt : (u.relative, .noDonor) ∈ attempts)
    (hjudges : ¬ tools.Judges s'.world.disk u.path false) :
    ∀ o ∈ candidates outputs u, tools.Judges s'.world.disk o.path true := by
  induction paths generalizing s attempts mended with
  | nil =>
      cases hrun
      exact absurd hattempt List.not_mem_nil
  | cons path rest ih =>
      have hpaths := map_fst_of_tryAll hrun
      obtain ⟨attempt, middle, hfirst, hrun⟩ := Mending.exists_of_run_bind hrun
      obtain ⟨others, last, hrest, hrun⟩ := Mending.exists_of_run_bind hrun
      cases hrun
      obtain ⟨hhead, hnodup⟩ := List.nodup_cons.mp hnodup
      have htried := tried_of_tryTarget htidy hfirst
      have hfine := hnot (path, attempt) List.mem_cons_self
      have hs' := hs.tried htidy htruthful hfine htried
      have hnot' : ∀ a ∈ others, ∀ donor, a.2 ≠ .refused donor :=
        fun a ha => hnot a (List.mem_cons_of_mem _ ha)
      rcases List.mem_cons.mp hattempt with heq | hattempt
      · -- from here on the variants are known to be opaque
        obtain ⟨rfl, rfl⟩ := Prod.mk.inj heq
        obtain ⟨hevolves, -⟩ := evolves_tryAll htidy hs'.standing hs'.lacks hrest
        have hread := read_eq_of_among hs'.standing hevolves hu hhead
        cases htried with
        | noDonor htarget hpath hlearns hvariants =>
            obtain rfl := hs.standing.eq_of_relative _ htarget u hu hpath
            exact Frozen.tryAll ⟨hvariants, fun h => hjudges (h.congr hread)⟩ hs' htidy htruthful hu
              hmended hhead hnot' hrest
      · have hmem : u.relative ∈ rest := by
          rw [← map_fst_of_tryAll hrest]
          exact List.mem_map_of_mem hattempt
        have hne : u.relative ≠ path := fun heq => hhead (heq ▸ hmem)
        exact ih hs' (not_mem_mendedBy hne hmended) hnodup hnot' hrest hattempt

/-! ### Outputs whose variants are opaque -/

theorem firstDonor_congr (h : other.probe = tools.probe) (os : List OutputFile) :
    firstDonor other os = firstDonor tools os := by
  have hone : isOpaque other = isOpaque tools := by
    funext o
    unfold isOpaque
    rw [h]
  induction os with
  | nil => rfl
  | cons o rest ih => rw [firstDonor, firstDonor, hone, ih]

/-- Nothing is remembered to be transparent. -/
def KnowsOpaque (s : State σ) : Prop :=
  ∀ key : String, s.opacity[key]? ≠ some false

/-- **No donor is found among opaque outputs.** -/
theorem exists_firstDonor_of_judges (htidy : tools.Tidy) {os : List OutputFile}
    (hos : ∀ o ∈ os, tools.Judges s.world.disk o.path true) (hs : KnowsOpaque s) :
    ∃ s', (firstDonor tools os).run.run s = (.ok none, s') ∧ s'.world.disk = s.world.disk ∧
      KnowsOpaque s' := by
  induction os generalizing s with
  | nil => exact ⟨s, rfl, rfl, hs⟩
  | cons o rest ih =>
      -- whether it is remembered or asked, the answer is that the first output is opaque
      have hone : ∃ middle, (isOpaque tools o).run.run s = (.ok true, middle) ∧
          middle.world.disk = s.world.disk ∧ KnowsOpaque middle := by
        have hinsert : ∀ w : World σ, KnowsOpaque ⟨w, s.opacity.insert o.relative true⟩ := by
          intro w key hkey
          dsimp only at hkey
          rw [Std.TreeMap.getElem?_insert] at hkey
          split at hkey
          · cases hkey
          · exact hs key hkey
        have hverdict := hos o List.mem_cons_self s.world rfl
        have hdisk := htidy.probe o.path s.world
        rw [run_isOpaque]
        cases hknown : s.opacity[o.relative]? with
        | some answer =>
            cases answer with
            | true => exact ⟨s, rfl, rfl, hs⟩
            | false => exact absurd hknown (hs _)
        | none =>
            match hprobe : tools.probe o.path s.world with
            | (.ok answer, w) =>
                rw [hprobe] at hverdict hdisk
                cases hverdict
                exact ⟨_, rfl, hdisk, hinsert w⟩
            | (.error (.failed e), w) =>
                rw [hprobe] at hdisk
                exact ⟨_, rfl, hdisk, hinsert w⟩
            | (.error (.broke message), w) =>
                rw [hprobe] at hverdict
                cases hverdict
            | (.error .stalled, w) =>
                rw [hprobe] at hverdict
                cases hverdict
      obtain ⟨middle, hrun, hdisk, hmiddle⟩ := hone
      obtain ⟨s', hrest, hdisk', hs'⟩ := ih (s := middle)
        (fun p hp => by rw [hdisk]; exact hos p (List.mem_cons_of_mem o hp)) hmiddle
      refine ⟨s', ?_, hdisk'.trans hdisk, hs'⟩
      rw [firstDonor, Mending.run_bind, hrun]
      exact hrest

/-- **Outputs whose variants are all opaque are left as they are**, and nothing is merged: whatever
the tool would do, only its answers matter. -/
theorem exists_tryAll_of_judges (htidy : tools.Tidy) {paths : List String}
    (hpaths : ∀ path ∈ paths, ∀ target ∈ outputs, target.relative = path →
      ∀ o ∈ candidates outputs target, tools.Judges s.world.disk o.path true) (hs : KnowsOpaque s) :
    ∃ attempts s', (∀ other : Toolchain σ, other.probe = tools.probe →
        (tryAll other outputs paths).run.run s = (.ok attempts, s')) ∧
      (∀ a ∈ attempts, a.2.donor? = none) ∧ s'.world.disk = s.world.disk := by
  induction paths generalizing s with
  | nil => exact ⟨[], s, fun _ _ => rfl, by simp, rfl⟩
  | cons path rest ih =>
      have hone : ∃ attempt middle, (∀ other : Toolchain σ, other.probe = tools.probe →
          (tryTarget other outputs path).run.run s = (.ok attempt, middle)) ∧
          attempt.donor? = none ∧ middle.world.disk = s.world.disk ∧ KnowsOpaque middle := by
        cases hfind : outputs.find? (·.relative == path) with
        | none =>
            refine ⟨.missing, s, fun other _ => ?_, rfl, rfl, hs⟩
            rw [tryTarget, hfind]
            rfl
        | some target =>
            obtain ⟨middle, hrun, hdisk, hmiddle⟩ := exists_firstDonor_of_judges htidy
              (hpaths path List.mem_cons_self target (List.mem_of_find?_eq_some hfind)
                (by simpa using List.find?_some hfind)) hs
            refine ⟨.noDonor, middle, fun other hother => ?_, rfl, hdisk, hmiddle⟩
            rw [tryTarget, hfind]
            dsimp only
            rw [firstDonor_congr hother, Mending.run_bind, hrun]
            rfl
      obtain ⟨attempt, middle, hfirst, hdonor, hdisk, hmiddle⟩ := hone
      obtain ⟨attempts, s', hrest, hdonors, hdisk'⟩ := ih (s := middle) (fun p hp target ht heq => by
        rw [hdisk]
        exact hpaths p (List.mem_cons_of_mem path hp) target ht heq) hmiddle
      refine ⟨(path, attempt) :: attempts, s', fun other hother => ?_, ?_, hdisk'.trans hdisk⟩
      · rw [tryAll, Mending.run_bind, hfirst other hother]
        dsimp only
        rw [Mending.run_bind, hrest other hother]
        rfl
      · intro a ha
        rcases List.mem_cons.mp ha with rfl | ha
        · exact hdonor
        · exact hdonors a ha

end Reconciliation

end CharacterArt
