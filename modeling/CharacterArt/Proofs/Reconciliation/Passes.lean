import CharacterArt.Proofs.Reconciliation.Donors

/-!
# A pass over the outputs without a mask

Outputs are mended one after the other, and what one of them finds depends on those before: an output
that was mended counts as not opaque, and it holds another picture.  Everything else stays as it was
when the pass began, so what was asked of an output that was not mended is still right.

## Main Definitions

* `Reaches`, `Finds` — where a pass comes to, and which donor it finds there
* `Asked` — what a pass asks the tool
* `Counts` — whether an output counts as opaque: it was mended, or the tool was asked
* `IsDonor` — the nearest variant that counts as not opaque
* `Recalls` — what is known in the middle of a pass

## Main Results

* `Attempted.evolves` — an attempt writes the output that it mends
* `Asked.unique` — a pass asks of an output once
* `Recalls.attempted`, `recalls_of_tryAll` — an attempt keeps what is known right, and so does a pass
* `exists_mend_of_tryAll` — when an output was mended
-/

namespace CharacterArt.Reconciliation

variable {σ : Type} {tools : Toolchain σ} {outputs : List OutputFile} {o target donor : OutputFile}
  {s s' : State σ} {v w : World σ} {path : String} {before paths : List String}
  {fixed : String → Prop} {mended : List String} {answer : Bool} {attempt : Attempt}
  {attempts : List (String × Attempt)}

/-! ### What a pass asks and finds -/

/-- Mending some outputs, when nothing is remembered yet, leads to a state. -/
def Reaches (tools : Toolchain σ) (outputs : List OutputFile) (w : World σ) (paths : List String)
    (s : State σ) : Prop :=
  ∃ results, (mendAll tools outputs paths).run.run ⟨w, ∅⟩ = (.ok results, s)

/-- After some outputs were mended, a donor is found for another one. -/
def Finds (tools : Toolchain σ) (outputs : List OutputFile) (w : World σ) (before : List String)
    (target donor : OutputFile) (s : State σ) : Prop :=
  ∃ start, Reaches tools outputs w before start ∧
    (firstDonor tools (candidates outputs target)).run.run start = (.ok (some donor), s)

/-- While the outputs of certain paths are mended, it is asked in a certain world whether an output is
opaque. -/
def Asked (tools : Toolchain σ) (outputs : List OutputFile) (w : World σ) (paths : List String)
    (o : OutputFile) (v : World σ) : Prop :=
  ∃ before target after s, paths = before ++ target.relative :: after ∧ target ∈ outputs ∧
    Reaches tools outputs w before s ∧ Asks tools (candidates outputs target) s o v

/-- What an output counts as in a pass: one that was mended is not opaque, and of another one the tool
was asked, when it was as in the beginning. -/
inductive Counts (tools : Toolchain σ) (outputs : List OutputFile) (w : World σ)
    (paths : List String) (fixed : String → Prop) (o : OutputFile) : Bool → Prop where
  | fixed (h : fixed o.relative) : Counts tools outputs w paths fixed o false
  | probed {v : World σ} {answer : Bool} (hnot : ¬ fixed o.relative)
      (hasked : Asked tools outputs w paths o v) (hread : v.disk.read o.path = w.disk.read o.path)
      (hverdict : verdict? (tools.probe o.path v).1 = some answer) :
      Counts tools outputs w paths fixed o answer

/-- The donor of an output: a variant that counts as not opaque, when all those that stand before it
count as opaque. -/
structure IsDonor (counts : OutputFile → Bool → Prop) (outputs : List OutputFile)
    (target donor : OutputFile) : Prop where
  mem : donor ∈ outputs
  differs : donor.relative ≠ target.relative
  key : donor.key = target.key
  transparent : counts donor false
  opaque_of_nearer : ∀ o ∈ outputs, o.relative ≠ target.relative → o.key = target.key →
    Nearer target o donor → counts o true

/-- What was asked was asked in every longer pass. -/
theorem Asked.append (h : Asked tools outputs w paths o v) (more : List String) :
    Asked tools outputs w (paths ++ more) o v := by
  obtain ⟨before, target, after, s, rfl, htarget, hreaches, hasks⟩ := h
  refine ⟨before, target, after ++ more, s, ?_, htarget, hreaches, hasks⟩
  rw [List.append_assoc, List.cons_append]

theorem Counts.append (h : Counts tools outputs w paths fixed o answer) (more : List String) :
    Counts tools outputs w (paths ++ more) fixed o answer := by
  cases h with
  | fixed h => exact .fixed h
  | probed hnot hasked hread hverdict => exact .probed hnot (hasked.append more) hread hverdict

/-- Mending an output makes no difference to what another one counts as. -/
theorem Counts.append_mended (h : Counts tools outputs w paths (· ∈ mended) o answer)
    (hne : o.relative ≠ path) :
    Counts tools outputs w paths (· ∈ mended ++ [path]) o answer := by
  cases h with
  | fixed h => exact .fixed (List.mem_append_left _ h)
  | probed hnot hasked hread hverdict =>
      refine .probed (fun hmem => ?_) hasked hread hverdict
      rcases List.mem_append.mp hmem with hmem | hmem
      · exact hnot hmem
      · exact hne (List.mem_singleton.mp hmem)

/-! ### What is recalled in the middle of a pass -/

/-- A picture in its place is a file outside the scratch directories. -/
theorem Standing.lies {d : Files} (h : Standing outputs d) (hlacks : d.Lacks InScratch)
    (ho : o ∈ outputs) : Lies d o.path :=
  ⟨h.avoids hlacks ho, h.way o ho, h.file o ho⟩

/-- In the middle of a pass some outputs were mended, which count as not opaque, and nothing else was
changed.  Whatever else is remembered, the tool said so. -/
structure Recalls (tools : Toolchain σ) (outputs : List OutputFile) (w : World σ)
    (paths mended : List String) (s : State σ) : Prop where
  evolves : w.disk.Evolves (producing w.disk.cwd (among outputs mended)) s.world.disk
  lacks : s.world.disk.Lacks InScratch
  fixed : ∀ path ∈ mended, s.opacity[path]? = some false
  counts : ∀ o ∈ outputs, ∀ answer, s.opacity[o.relative]? = some answer →
    Counts tools outputs w paths (· ∈ mended) o answer

/-- Nothing is known in the beginning. -/
theorem recalls_start (hlacks : w.disk.Lacks InScratch) :
    Recalls tools outputs w [] [] ⟨w, ∅⟩ where
  evolves := Disk.Evolves.refl _ _
  lacks := hlacks
  fixed _ h := absurd h List.not_mem_nil
  counts o ho answer h := by
    dsimp only at h
    rw [Std.TreeMap.getElem?_emptyc] at h
    cases h

theorem Recalls.append (h : Recalls tools outputs w paths mended s) (more : List String) :
    Recalls tools outputs w (paths ++ more) mended s where
  evolves := h.evolves
  lacks := h.lacks
  fixed := h.fixed
  counts o ho answer hanswer := (h.counts o ho answer hanswer).append more

/-- **The donor that is found is the nearest variant that counts as not opaque.** -/
theorem Recalls.isDonor (htidy : tools.Tidy) (h : Recalls tools outputs w paths mended s')
    (hrun : (firstDonor tools (candidates outputs target)).run.run s = (.ok (some donor), s')) :
    IsDonor (Counts tools outputs w paths (· ∈ mended)) outputs target donor := by
  obtain ⟨hmem, hfalse⟩ := (learns_firstDonor htidy (fun _ => id) hrun).2.2 donor rfl
  obtain ⟨front, back, hsplit, hfront⟩ := exists_split_of_firstDonor htidy hrun
  obtain ⟨hdonor, hdiffers, hkey⟩ := mem_candidates.mp hmem
  refine ⟨hdonor, hdiffers, hkey, h.counts donor hdonor false hfalse, ?_⟩
  intro o ho hne hsame hnearer
  exact h.counts o ho true
    (hfront o (mem_of_nearer hsplit (mem_candidates.mpr ⟨ho, hne, hsame⟩) hnearer))

/-- An output without a donor has only variants that count as opaque. -/
theorem Recalls.counts_of_none (htidy : tools.Tidy)
    (h : Recalls tools outputs w paths mended s')
    (hrun : (firstDonor tools (candidates outputs target)).run.run s = (.ok none, s'))
    (ho : o ∈ outputs) (hne : o.relative ≠ target.relative) (hkey : o.key = target.key) :
    Counts tools outputs w paths (· ∈ mended) o true :=
  h.counts o ho true ((learns_firstDonor htidy (fun _ => id) hrun).2.1 rfl o
    (mem_candidates.mpr ⟨ho, hne, hkey⟩))

/-! ### Attempts in a pass -/

/-- The outputs that are mended in a pass. -/
def mendedIn (attempts : List (String × Attempt)) : List String :=
  attempts.flatMap fun a => mendedBy a.1 a.2

theorem mem_mendedIn : path ∈ mendedIn attempts ↔ ∃ name, (path, .merged name) ∈ attempts := by
  rw [mendedIn, List.mem_flatMap]
  constructor
  · rintro ⟨⟨other, attempt⟩, ha, hpath⟩
    cases attempt with
    | merged name =>
        obtain rfl := List.mem_singleton.mp hpath
        exact ⟨name, ha⟩
    | missing | noDonor | refused name => exact absurd hpath List.not_mem_nil
  · rintro ⟨name, ha⟩
    exact ⟨_, ha, List.mem_singleton_self path⟩

/-- In a pass there is a moment for each output. -/
theorem exists_attempt_of_tryAll {after : List String}
    (hrun : (tryAll tools outputs (before ++ path :: after)).run.run s = (.ok attempts, s')) :
    ∃ first start attempt middle others,
      (tryAll tools outputs before).run.run s = (.ok first, start) ∧
      Attempted tools outputs path start attempt middle ∧
      (tryAll tools outputs after).run.run middle = (.ok others, s') ∧
      attempts = first ++ (path, attempt) :: others := by
  obtain ⟨first, start, rest, hfirst, hrest, rfl⟩ := exists_of_tryAll_append hrun
  obtain ⟨attempt, middle, htry, hrest⟩ := Mending.exists_of_run_bind hrest
  obtain ⟨others, last, hothers, hrest⟩ := Mending.exists_of_run_bind hrest
  cases hrest
  exact ⟨first, start, attempt, middle, others, hfirst, attempted_of_tryTarget htry, hothers, rfl⟩

/-- **An attempt writes the output that it mends**, and nothing if it fails. -/
theorem Attempted.evolves (htidy : tools.Tidy) (hstanding : Standing outputs s.world.disk)
    (hlacks : s.world.disk.Lacks InScratch) (h : Attempted tools outputs path s attempt s') :
    s.world.disk.Evolves (producing s.world.disk.cwd (among outputs (mendedBy path attempt)))
      s'.world.disk ∧ s'.world.disk.Lacks InScratch := by
  have hlearns : ∀ {target : OutputFile} {found : Option OutputFile} {s' : State σ},
      (firstDonor tools (candidates outputs target)).run.run s = (.ok found, s') →
      s'.world.disk = s.world.disk := fun hfind =>
    (learns_firstDonor htidy (fun _ => id) hfind).1.disk_eq
  cases h with
  | missing => exact ⟨Disk.Evolves.refl _ _, hlacks⟩
  | noDonor htarget hpath hfind =>
      rw [hlearns hfind]
      exact ⟨Disk.Evolves.refl _ _, hlacks⟩
  | @merged target donor middle w' htarget hpath hfind hmerge =>
      rw [← hlearns hfind] at hstanding hlacks ⊢
      obtain ⟨hevolves, hlacks'⟩ := evolves_mergeInPlace htidy hlacks
        (hstanding.avoids hlacks htarget) hmerge
      refine ⟨hevolves.producing ?_, hlacks'⟩
      rintro other rfl
      exact ⟨target, htarget, List.mem_singleton.mpr hpath, rfl⟩
  | @refused target donor middle w' e htarget hpath hfind hmerge =>
      have hdonor := (mem_candidates.mp
        ((learns_firstDonor htidy (fun _ => id) hfind).2.2 donor rfl).1).1
      rw [← hlearns hfind] at hstanding hlacks ⊢
      have hevolves := (mergeInPlace_cases htidy hlacks (hstanding.lies hlacks htarget)
        (hstanding.lies hlacks hdonor) hmerge).2 _ rfl
      have hlacks' := (evolves_mergeInPlace htidy hlacks (hstanding.avoids hlacks htarget) hmerge).2
      exact ⟨hevolves.producing fun _ => False.elim, hlacks'⟩

/-- **An output that is mended takes the alpha of the donor that was found.** -/
theorem takes_of_merge (htidy : tools.Tidy) (hstanding : Standing outputs s.world.disk)
    (hlacks : s.world.disk.Lacks InScratch) (htarget : target ∈ outputs) {w' : World σ}
    (hfind : (firstDonor tools (candidates outputs target)).run.run s = (.ok (some donor), s'))
    (hmerge : (mergeInPlace tools scratch target.path donor.path).run.run s'.world = (.ok (), w')) :
    Takes tools target.path donor.path s'.world w' := by
  obtain ⟨hlearns, -, hsome⟩ := learns_firstDonor htidy (fun _ => id) hfind
  have hdonor := (mem_candidates.mp (hsome donor rfl).1).1
  rw [← hlearns.disk_eq] at hstanding hlacks
  exact (mergeInPlace_cases htidy hlacks (hstanding.lies hlacks htarget)
    (hstanding.lies hlacks hdonor) hmerge).1 rfl

/-! ### What is asked once is known -/

/-- What is known after the search of an attempt is known after the attempt. -/
theorem Attempted.known_of_search {key : String} (h : Attempted tools outputs path s attempt s')
    (hmissing : (∀ o ∈ outputs, o.relative ≠ path) → s.opacity[key]? ≠ none)
    (hsearch : ∀ {target : OutputFile} {found : Option OutputFile} {middle : State σ},
      target ∈ outputs → target.relative = path →
      (firstDonor tools (candidates outputs target)).run.run s = (.ok found, middle) →
      middle.opacity[key]? ≠ none) : s'.opacity[key]? ≠ none := by
  cases h with
  | missing h => exact hmissing h
  | noDonor htarget hpath hfind => exact hsearch htarget hpath hfind
  | refused htarget hpath hfind hmerge =>
      have hknown := hsearch htarget hpath hfind
      exact hknown
  | merged htarget hpath hfind hmerge =>
      dsimp only
      rw [Std.TreeMap.getElem?_insert]
      split
      · exact Option.some_ne_none _
      · exact hsearch htarget hpath hfind

/-- A pass forgets nothing. -/
theorem known_of_tryAll (htidy : tools.Tidy) {key : String} (hkey : s.opacity[key]? ≠ none)
    (hrun : (tryAll tools outputs paths).run.run s = (.ok attempts, s')) :
    s'.opacity[key]? ≠ none := by
  induction paths generalizing s attempts with
  | nil =>
      cases hrun
      exact hkey
  | cons path rest ih =>
      obtain ⟨attempt, middle, hfirst, hrun⟩ := Mending.exists_of_run_bind hrun
      obtain ⟨others, last, hrest, hrun⟩ := Mending.exists_of_run_bind hrun
      cases hrun
      obtain ⟨answer, hanswer⟩ := Option.ne_none_iff_exists'.mp hkey
      have hmiddle := (attempted_of_tryTarget hfirst).known_of_search (fun _ => hkey)
        fun _ _ hfind => by
          rw [(learns_firstDonor htidy (fun _ => id) hfind).1.keeps hanswer]
          exact Option.some_ne_none _
      exact ih hmiddle hrest

/-- A pass leads to one state. -/
theorem Reaches.eq (h : Reaches tools outputs w paths s) (h' : Reaches tools outputs w paths s') :
    s = s' := by
  obtain ⟨results, h⟩ := h
  obtain ⟨results', h'⟩ := h'
  rw [h] at h'
  exact congrArg Prod.snd h'

theorem Reaches.exists_tryAll (h : Reaches tools outputs w paths s) :
    ∃ attempts, (tryAll tools outputs paths).run.run ⟨w, ∅⟩ = (.ok attempts, s) := by
  obtain ⟨results, h⟩ := h
  rw [mendAll_eq, ExceptT.run_map, StateT.run_map] at h
  match hrun : (tryAll tools outputs paths).run.run ⟨w, ∅⟩ with
  | (.ok attempts, last) =>
      rw [hrun] at h
      cases h
      exact ⟨attempts, rfl⟩
  | (.error stop, last) =>
      rw [hrun] at h
      cases h

/-- What is asked for one output is known when the pass comes to a later one. -/
theorem Asks.known_later (htidy : tools.Tidy) (hstanding : Standing outputs w.disk)
    (hasks : Asks tools (candidates outputs target) s o v) (hreaches : Reaches tools outputs w before s)
    (htarget : target ∈ outputs) {more : List String}
    (hlater : Reaches tools outputs w (before ++ target.relative :: more) s') :
    s'.opacity[o.relative]? ≠ none := by
  obtain ⟨attempts, hrun⟩ := hlater.exists_tryAll
  obtain ⟨first, start, attempt, middle, others, hfirst, hattempted, hothers, -⟩ :=
    exists_attempt_of_tryAll hrun
  obtain rfl := hreaches.eq ⟨_, mendAll_of_tryAll hfirst⟩
  refine known_of_tryAll htidy ?_ hothers
  -- the search of this attempt is the one in which it is asked
  refine hattempted.known_of_search (fun h => absurd rfl (h target htarget)) ?_
  intro target' found middle htarget' hpath hfind
  obtain rfl := hstanding.eq_of_relative target' htarget' target htarget hpath
  exact hasks.known htidy hfind

/-- Of what is asked for one output it is not asked again for a later one. -/
theorem Asks.eq_of_later (htidy : tools.Tidy) (hstanding : Standing outputs w.disk)
    {more after after' : List String} {target' : OutputFile} {v' : World σ}
    (htarget : target ∈ outputs) (hreaches : Reaches tools outputs w before s)
    (hasks : Asks tools (candidates outputs target) s o v) (htarget' : target' ∈ outputs)
    (hreaches' : Reaches tools outputs w (before ++ more) s')
    (hasks' : Asks tools (candidates outputs target') s' o v')
    (hsplit : target.relative :: after = more ++ target'.relative :: after') : v = v' := by
  cases more with
  | nil =>
      obtain ⟨hpath, -⟩ := List.cons.inj hsplit
      obtain rfl := hstanding.eq_of_relative target htarget target' htarget' hpath
      rw [List.append_nil] at hreaches'
      obtain rfl := hreaches.eq hreaches'
      exact hasks.unique htidy hasks'
  | cons path more =>
      obtain ⟨rfl, -⟩ := List.cons.inj hsplit
      exact absurd (hasks'.not_known htidy)
        (hasks.known_later htidy hstanding hreaches htarget hreaches')

/-- **A pass asks of an output once.** -/
theorem Asked.unique (htidy : tools.Tidy) (hstanding : Standing outputs w.disk) {v' : World σ}
    (h : Asked tools outputs w paths o v) (h' : Asked tools outputs w paths o v') : v = v' := by
  obtain ⟨before, target, after, s, rfl, htarget, hreaches, hasks⟩ := h
  obtain ⟨before', target', after', s', hsplit, htarget', hreaches', hasks'⟩ := h'
  rcases List.append_eq_append_iff.mp hsplit with ⟨more, rfl, hmore⟩ | ⟨more, rfl, hmore⟩
  · exact hasks.eq_of_later htidy hstanding htarget hreaches htarget' hreaches' hasks' hmore
  · exact (hasks'.eq_of_later htidy hstanding htarget' hreaches' htarget hreaches hasks hmore).symm

/-- **An output counts as opaque or not, and never as both.** -/
theorem Counts.unique (htidy : tools.Tidy) (hstanding : Standing outputs w.disk) {other : Bool}
    (h : Counts tools outputs w paths fixed o answer)
    (h' : Counts tools outputs w paths fixed o other) : answer = other := by
  cases h with
  | fixed hfixed =>
      cases h' with
      | fixed => rfl
      | probed hnot => exact absurd hfixed hnot
  | probed hnot hasked hread hverdict =>
      cases h' with
      | fixed hfixed => exact absurd hfixed hnot
      | probed hnot' hasked' hread' hverdict' =>
          obtain rfl := hasked.unique htidy hstanding hasked'
          rw [hverdict] at hverdict'
          exact Option.some.inj hverdict'

/-! ### What is known in a pass -/

section Pass

variable (htidy : tools.Tidy) (hstanding : Standing outputs w.disk)

include htidy hstanding

/-- **The search for a donor keeps what is known right.** -/
theorem Recalls.search (h : Recalls tools outputs w paths mended s)
    (hreaches : Reaches tools outputs w paths s) (htarget : target ∈ outputs)
    {found : Option OutputFile}
    (hrun : (firstDonor tools (candidates outputs target)).run.run s = (.ok found, s')) :
    Recalls tools outputs w (paths ++ [target.relative]) mended s' := by
  have hlearns := (learns_firstDonor htidy (fun o ho => (mem_candidates.mp ho).1) hrun).1
  refine ⟨?_, ?_, fun path hpath => hlearns.keeps (h.fixed path hpath), ?_⟩
  · rw [hlearns.disk_eq]
    exact h.evolves
  · rw [hlearns.disk_eq]
    exact h.lacks
  · intro o ho answer hanswer
    by_cases hmended : o.relative ∈ mended
    · rw [hlearns.keeps (h.fixed _ hmended)] at hanswer
      cases hanswer
      exact .fixed hmended
    · rcases asks_of_firstDonor htidy hrun hanswer with hanswer | ⟨p, v, hp, hasks, hverdict⟩
      · exact (h.counts o ho answer hanswer).append _
      · obtain rfl := hstanding.eq_of_relative p (mem_candidates.mp hasks.mem).1 o ho hp
        refine .probed hmended ⟨paths, target, [], s, rfl, htarget, hreaches, hasks⟩ ?_ hverdict
        rw [hasks.disk_eq htidy]
        exact read_eq_of_among hstanding h.evolves ho hmended

/-- **An attempt keeps what is known right.** -/
theorem Recalls.attempted (h : Recalls tools outputs w paths mended s)
    (hreaches : Reaches tools outputs w paths s)
    (hattempted : Attempted tools outputs path s attempt s') :
    Recalls tools outputs w (paths ++ [path]) (mended ++ mendedBy path attempt) s' := by
  obtain ⟨hchanged, hlacks⟩ := hattempted.evolves htidy (hstanding.evolves h.evolves) h.lacks
  have hevolves : w.disk.Evolves (producing w.disk.cwd
      (among outputs (mended ++ mendedBy path attempt))) s'.world.disk := by
    rw [h.evolves.cwd] at hchanged
    refine (h.evolves.producing ?_).trans (hchanged.producing ?_)
    · rintro other ⟨o, ho, hmem, rfl⟩
      exact ⟨o, ho, List.mem_append_left _ hmem, rfl⟩
    · rintro other ⟨o, ho, hmem, rfl⟩
      exact ⟨o, ho, List.mem_append_right _ hmem, rfl⟩
  cases hattempted with
  | missing =>
      rw [mendedBy, List.append_nil]
      exact h.append [path]
  | noDonor htarget hpath hfind =>
      subst hpath
      rw [mendedBy, List.append_nil]
      exact h.search htidy hstanding hreaches htarget hfind
  | refused htarget hpath hfind hmerge =>
      subst hpath
      have hmiddle := h.search htidy hstanding hreaches htarget hfind
      refine ⟨hevolves, hlacks, ?_, ?_⟩
      · rw [mendedBy, List.append_nil]
        exact hmiddle.fixed
      · rw [mendedBy, List.append_nil]
        exact hmiddle.counts
  | @merged target donor middle w' htarget hpath hfind hmerge =>
      subst hpath
      have hmiddle := h.search htidy hstanding hreaches htarget hfind
      refine ⟨hevolves, hlacks, fun path hpath => ?_, fun o ho answer hanswer => ?_⟩
      · dsimp only
        rw [Std.TreeMap.getElem?_insert]
        split
        · rfl
        · next hne =>
            rw [Std.compare_eq_iff_eq] at hne
            rcases List.mem_append.mp hpath with hpath | hpath
            · exact hmiddle.fixed path hpath
            · exact absurd (List.mem_singleton.mp hpath).symm hne
      · dsimp only at hanswer
        rw [Std.TreeMap.getElem?_insert] at hanswer
        split at hanswer
        · next heq =>
            cases hanswer
            rw [Std.compare_eq_iff_eq] at heq
            exact .fixed (List.mem_append_right _ (List.mem_singleton.mpr heq.symm))
        · next hne =>
            rw [Std.compare_eq_iff_eq] at hne
            exact (hmiddle.counts o ho answer hanswer).append_mended (Ne.symm hne)

/-- **What is known after a pass.** -/
theorem recalls_of_tryAll (hlacks : w.disk.Lacks InScratch)
    (hrun : (tryAll tools outputs paths).run.run ⟨w, ∅⟩ = (.ok attempts, s)) :
    Recalls tools outputs w paths (mendedIn attempts) s := by
  -- the last attempt is made where the pass over the others comes to
  induction paths using List.reverseRecOn generalizing attempts s with
  | nil =>
      cases hrun
      exact recalls_start hlacks
  | append_singleton before path ih =>
      obtain ⟨first, start, attempt, middle, others, hfirst, hattempted, hrest, rfl⟩ :=
        exists_attempt_of_tryAll hrun
      cases hrest
      rw [mendedIn, List.flatMap_append, List.flatMap_singleton]
      exact (ih hfirst).attempted htidy hstanding ⟨_, mendAll_of_tryAll hfirst⟩ hattempted

/-- **An output that was mended was so at a certain moment of the pass**, and it has had the alpha
that it took there ever since. -/
theorem exists_mend_of_tryAll (hlacks : w.disk.Lacks InScratch)
    (hrun : (tryAll tools outputs paths).run.run ⟨w, ∅⟩ = (.ok attempts, s)) (ho : o ∈ outputs)
    (hmended : o.relative ∈ mendedIn attempts) :
    ∃ front after other early, paths = front ++ o.relative :: after ∧
      Finds tools outputs w front o other early ∧
      Takes tools o.path other.path early.world s.world := by
  induction paths using List.reverseRecOn generalizing attempts s with
  | nil =>
      cases hrun
      exact absurd hmended List.not_mem_nil
  | append_singleton before path ih =>
      obtain ⟨first, start, attempt, middle, others, hfirst, hattempted, hrest, rfl⟩ :=
        exists_attempt_of_tryAll hrun
      cases hrest
      have hstart := recalls_of_tryAll htidy hstanding hlacks hfirst
      have hplaces := hstanding.evolves hstart.evolves
      by_cases hlast : o.relative ∈ mendedBy path attempt
      · -- this is the moment
        cases hattempted with
        | missing | noDonor | refused => exact absurd hlast List.not_mem_nil
        | merged htarget hpath hfind hmerge =>
            obtain rfl := hstanding.eq_of_relative _ htarget o ho
              (hpath.trans (List.mem_singleton.mp hlast).symm)
            subst hpath
            exact ⟨before, [], _, _, rfl, ⟨start, ⟨_, mendAll_of_tryAll hfirst⟩, hfind⟩,
              takes_of_merge htidy hplaces hstart.lacks htarget hfind hmerge⟩
      · rw [mendedIn, List.flatMap_append, List.flatMap_singleton] at hmended
        have hearly := (List.mem_append.mp hmended).resolve_right hlast
        obtain ⟨front, after, other, early, rfl, hfinds, htakes⟩ := ih hfirst hearly
        have hread := read_eq_of_among hplaces
          (hattempted.evolves htidy hplaces hstart.lacks).1 ho hlast
        refine ⟨front, after ++ [path], other, early, ?_, hfinds, htakes.congr rfl rfl hread⟩
        rw [List.append_assoc, List.cons_append]

end Pass

end CharacterArt.Reconciliation
