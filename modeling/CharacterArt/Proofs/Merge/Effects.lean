import CharacterArt.Merge.Pool
import CharacterArt.Proofs.Disk.Evolution
import CharacterArt.Proofs.Disk.Names
import CharacterArt.Reconciliation
import CharacterArt.Toolchain.InProcess

/-!
# What merging leaves behind

A task writes its output and makes the directories above it.  Everything else that it does happens
in its scratch directory, which was not there before and is gone afterwards.  What the tool does is
not known; it is only asked to keep to the directory of the file that it is told to write.

## Main Definitions

* `Toolchain.Tidy` — every call keeps to the directory of its target
* `Call.WritesOnly` — a call that changes one file
* `Work.Evolves` — work that changes nothing out of scope
* `IsScratch` — the scratch directories of merging

## Main Results

* `MergeTask.run_job` — what a task does first
* `MergeTask.job_steps`, `MergeTask.status_of_run_job` — how a task goes on, and how it ends
* `MergeTask.job_cases` — what a task leaves behind
-/

namespace CharacterArt

/-! ### Tools -/

/-- A call changes nothing but what lies in the directory of a file. -/
def Call.StaysBeside {σ α : Type} (c : Call σ α) (path : String) : Prop :=
  ∀ w : World σ, w.disk.Evolves { scratch := fun l => (Path.place w.disk.cwd path).dropLast <+: l }
    (c w).2.disk

/-- Every call of a tool keeps to the directory of the file that it is told to write, and looking at
a picture writes none. -/
structure Toolchain.Tidy {σ : Type} (tools : Toolchain σ) : Prop where
  probe : ∀ image w, (tools.probe image w).2.disk = w.disk
  resize : ∀ source width height target,
    (tools.resize source width height target).StaysBeside target
  copyAlpha : ∀ base mask target, (tools.copyAlpha base mask target).StaysBeside target
  quantize : ∀ image, (tools.quantize image).StaysBeside image

/-- A call changes nothing but one file. -/
def Call.WritesOnly {σ α : Type} (c : Call σ α) (path : String) : Prop :=
  ∀ w : World σ, w.disk.Evolves (.only (Path.place w.disk.cwd path)) (c w).2.disk

theorem Call.WritesOnly.staysBeside {σ α : Type} {c : Call σ α} {path : String}
    (h : c.WritesOnly path) : c.StaysBeside path := by
  refine fun w => (h w).mono ?_ (fun l hl => absurd hl id) fun l hl => absurd hl id
  rintro l rfl
  exact List.dropLast_prefix _

/-- A call that writes a picture changes nothing else. -/
theorem Call.writesOnly_writing {σ : Type} {f : Files → Except Error Files} {path : String}
    (h : ∀ d d', f d = .ok d' → ∃ p, Files.writePicture d path p = .ok d') :
    (InProcess.writing f : Call σ Unit).WritesOnly path := by
  intro w
  unfold InProcess.writing
  split
  · next d hd =>
      obtain ⟨p, hp⟩ := h _ _ hd
      exact Disk.evolves_write (Files.write_of_writePicture hp) (.inr rfl)
  · exact Disk.Evolves.refl _ w.disk

namespace InProcess

variable {σ : Type}

theorem writesOnly_resize (source : String) (width height : Nat) (target : String) :
    ((Toolchain.inProcess : Toolchain σ).resize source width height target).WritesOnly target := by
  refine Call.writesOnly_writing fun d d' h => ?_
  obtain ⟨p, -, h⟩ := bind_eq_ok_iff.mp h
  exact ⟨_, h⟩

theorem writesOnly_copyAlpha (base mask target : String) :
    ((Toolchain.inProcess : Toolchain σ).copyAlpha base mask target).WritesOnly target := by
  refine Call.writesOnly_writing fun d d' h => ?_
  obtain ⟨p, -, h⟩ := bind_eq_ok_iff.mp h
  obtain ⟨q, -, h⟩ := bind_eq_ok_iff.mp h
  exact ⟨_, h⟩

theorem writesOnly_quantize (image : String) :
    ((Toolchain.inProcess : Toolchain σ).quantize image).WritesOnly image := by
  refine Call.writesOnly_writing fun d d' h => ?_
  obtain ⟨p, -, h⟩ := bind_eq_ok_iff.mp h
  exact ⟨_, h⟩

end InProcess

/-- The tool that works in process keeps to the files that it is told to write. -/
theorem Toolchain.tidy_inProcess (σ : Type) : (Toolchain.inProcess : Toolchain σ).Tidy where
  probe image w := by
    unfold inProcess InProcess.reading
    dsimp only
    split <;> rfl
  resize source width height target :=
    (InProcess.writesOnly_resize source width height target).staysBeside
  copyAlpha base mask target := (InProcess.writesOnly_copyAlpha base mask target).staysBeside
  quantize image := (InProcess.writesOnly_quantize image).staysBeside

/-! ### Work -/

namespace Work

variable {σ α β : Type} {cwd : Location} {s : Disk.Scope}

/-- Work in two parts does the first one, and the second one if the first one ends well. -/
theorem run_bind (x : Work σ α) (f : α → Work σ β) (w : World σ) :
    (x >>= f).run.run w =
      match x.run.run w with
      | (.ok a, w) => (f a).run.run w
      | (.error e, w) => (.error e, w) := by
  show (x.run >>= fun r => _ : Job (World σ) (Except Stop β)).run w = _
  rw [Job.run_bind]
  match x.run.run w with
  | (.ok a, w) => rfl
  | (.error e, w) => rfl

/-- Work in two parts that ends well does so in both. -/
theorem exists_of_run_bind {x : Work σ α} {f : α → Work σ β} {b : β} {w w' : World σ}
    (h : (x >>= f).run.run w = (.ok b, w')) :
    ∃ a middle, x.run.run w = (.ok a, middle) ∧ (f a).run.run middle = (.ok b, w') := by
  rw [run_bind] at h
  match hrun : x.run.run w with
  | (.ok a, middle) =>
      rw [hrun] at h
      exact ⟨a, middle, rfl, h⟩
  | (.error e, middle) =>
      rw [hrun] at h
      cases h

theorem run_pure (a : α) (w : World σ) : (pure a : Work σ α).run.run w = (.ok a, w) := rfl

theorem run_call (c : Call σ α) (w : World σ) : (call c).run.run w = c w := rfl

/-- Work changes nothing out of scope. -/
def Evolves (cwd : Location) (s : Disk.Scope) (x : Work σ α) : Prop :=
  ∀ w : World σ, w.disk.cwd = cwd → w.disk.Evolves s (x.run.run w).2.disk

theorem evolves_pure (cwd : Location) (s : Disk.Scope) (a : α) :
    (pure a : Work σ α).Evolves cwd s :=
  fun w _ => Disk.Evolves.refl s w.disk

/-- **Work in two parts stays in scope if both parts do.** -/
theorem Evolves.bind {x : Work σ α} {f : α → Work σ β} (hx : x.Evolves cwd s)
    (hf : ∀ a, (f a).Evolves cwd s) : (x >>= f).Evolves cwd s := by
  intro w hcwd
  have hfirst := hx w hcwd
  rw [run_bind]
  match hrun : x.run.run w with
  | (.error e, w') =>
      rw [hrun] at hfirst
      exact hfirst
  | (.ok a, w') =>
      rw [hrun] at hfirst
      exact hfirst.trans (hf a w' (hfirst.cwd.trans hcwd))

theorem evolves_look (f : Files → Except Error α) : (look f : Work σ α).Evolves cwd s := by
  intro w _
  rw [look, run_call]
  split <;> exact Disk.Evolves.refl s w.disk

theorem evolves_change {f : Files → Except Error Files}
    (hf : ∀ d d', d.cwd = cwd → f d = .ok d' → d.Evolves s d') :
    (change f : Work σ Unit).Evolves cwd s := by
  intro w hcwd
  rw [change, run_call]
  split
  · next d hd => exact hf w.disk d hcwd hd
  · exact Disk.Evolves.refl s w.disk

/-- A call that keeps to a directory where anything may happen stays in scope. -/
theorem evolves_call {c : Call σ α} {path : String} (hc : c.StaysBeside path)
    (hscratch : ∀ l, (Path.place cwd path).dropLast <+: l → s.scratch l) :
    (call c).Evolves cwd s := by
  intro w hcwd
  rw [run_call]
  refine (hc w).mono (fun l hl => hscratch l ?_) (fun l hl => absurd hl id)
    (fun l hl => absurd hl id)
  rwa [← hcwd]

/-- A file that was copied is found under the path of the copy. -/
theorem find?_of_copy {source target : String} {w w' : World σ}
    (hrun : (change fun d => Files.copy d source target : Work σ Unit).run.run w = (.ok (), w')) :
    ∃ content, w'.disk.find? target = some (.file content) := by
  rw [change, run_call] at hrun
  split at hrun
  · next d hcopy =>
      cases hrun
      obtain ⟨content, -, hwrite⟩ := Disk.exists_write_of_copy (Files.copy_eq_ok_iff.mp hcopy)
      exact ⟨content, Disk.find?_of_write hwrite⟩
  · cases hrun

/-- Work in a scratch directory makes it first and takes it away in the end. -/
theorem run_withScratch (scratch : String) (work : Work σ α) (w : World σ) :
    (withScratch scratch work).run.run w =
      match Files.makeDirs w.disk scratch with
      | .error e => (.error (.failed e), w)
      | .ok d =>
        let (result, w) := work.run.run { w with disk := d }
        (result, { w with disk := Files.removeTree w.disk scratch }) := by
  rw [withScratch, run_bind, change, run_call]
  split
  · next d hd =>
      split at hd
      · next made hmade =>
          cases hd
          rw [hmade]
          show (work.run >>= fun r => _ : Job (World σ) (Except Stop α)).run _ = _
          rw [Job.run_bind]
          rfl
      · cases hd
  · next e w' hd =>
      split at hd
      · cases hd
      · next e' hmade =>
          cases hd
          rw [hmade]

end Work

/-! ### Scratch directories -/

/-- The scratch directories of merging. -/
inductive IsScratch : String → Prop where
  | merge (number : Nat) : IsScratch (MergePool.scratchOf number)
  | mend : IsScratch Reconciliation.scratch

namespace IsScratch

variable {scratch : String} {cwd m : Location}

/-- All scratch directories lie in one directory. -/
theorem exists_name (h : IsScratch scratch) :
    ∃ name, Path.IsName name ∧ scratch = Path.join "/tmp" name := by
  have hjoin : ∀ name, Path.isAbsolute name = false →
      Path.join "/tmp" name = "/tmp" ++ "/" ++ name := by
    intro name hname
    rw [Path.join, hname]
    rfl
  cases h with
  | mend => exact ⟨"reconcile", by decide, by decide⟩
  | merge number =>
      have hslash : '/' ∉ ("merge-" ++ toString number).toList := by
        rw [String.toList_append, List.mem_append, not_or]
        exact ⟨by decide, Path.no_slash_toString number⟩
      have hfirst : ("merge-" ++ toString number).toList.head? = some 'm' := by
        rw [String.toList_append]
        rfl
      refine ⟨"merge-" ++ toString number, ⟨?_, hslash, ?_, ?_⟩, ?_⟩
      · intro heq
        rw [heq] at hfirst
        cases hfirst
      · intro heq
        rw [heq] at hfirst
        cases hfirst
      · intro heq
        rw [heq] at hfirst
        cases hfirst
      · rw [hjoin _ (Path.isAbsolute_of_no_slash hslash), ← String.append_assoc]
        rfl

/-- A scratch directory lies in the same place wherever paths start. -/
theorem place_eq (h : IsScratch scratch) (cwd : Location) :
    ∃ name, Path.place cwd scratch = ["tmp", name] ∧ Path.place [] scratch = ["tmp", name] := by
  obtain ⟨name, hname, rfl⟩ := h.exists_name
  exact ⟨name, hname.place_join "/tmp" cwd, hname.place_join "/tmp" []⟩

theorem isEmpty (h : IsScratch scratch) : scratch.isEmpty = false := by
  obtain ⟨name, hplace, -⟩ := h.place_eq []
  rw [← Bool.not_eq_true, String.isEmpty_iff]
  rintro rfl
  cases hplace

/-- The way to a scratch directory leads through the root and the directory of all of them. -/
theorem passes (h : IsScratch scratch) (hm : Path.Passes cwd scratch m) : m = [] ∨ m = ["tmp"] := by
  obtain ⟨name, hname, rfl⟩ := h.exists_name
  rcases (hname.passes_join "/tmp" cwd m).mp hm with hm | hm
  · rcases Path.passesFrom_cons.mp hm with hm | hm
    · exact .inl hm
    · rcases Path.passesFrom_cons.mp hm with hm | hm
      · exact .inl hm
      · exact absurd hm Path.not_passesFrom_nil
  · exact .inr hm

/-- The ways to all scratch directories are one. -/
theorem passes_of_passes {other : String} (h : IsScratch scratch) (hother : IsScratch other)
    (hm : Path.Passes cwd other m) : Path.Passes cwd scratch m := by
  obtain ⟨name, hname, rfl⟩ := h.exists_name
  obtain ⟨name', hname', rfl⟩ := hother.exists_name
  rw [hname'.passes_join] at hm
  rwa [hname.passes_join]

/-- The way to every scratch directory is there, if the directory of all of them is. -/
theorem directory_of_passes {d : Files} (h : IsScratch scratch)
    (htemporary : d.node? ["tmp"] = some .directory) (hm : Path.Passes cwd scratch m) :
    d.node? m = some .directory := by
  rcases h.passes hm with rfl | rfl
  · rfl
  · exact htemporary

end IsScratch

/-- A place in a scratch directory. -/
def InScratch (l : Location) : Prop :=
  ∃ scratch, IsScratch scratch ∧ Path.place [] scratch <+: l

theorem InScratch.not_passes {scratch : String} {cwd m : Location} (h : IsScratch scratch)
    (hm : Path.Passes cwd scratch m) : ¬ InScratch m := by
  rintro ⟨other, hother, hbelow⟩
  obtain ⟨name, -, hplace⟩ := hother.place_eq cwd
  rw [hplace] at hbelow
  have hlength := hbelow.length_le
  rcases h.passes hm with rfl | rfl <;> simp at hlength

/-- All scratch directories lie in one directory below the root. -/
theorem InScratch.head?_eq {m : Location} (h : InScratch m) : m.head? = some "tmp" := by
  obtain ⟨scratch, hscratch, back, rfl⟩ := h
  obtain ⟨name, -, hplace⟩ := hscratch.place_eq []
  rw [hplace]
  rfl

/-- The directory of all scratch directories is none of them. -/
theorem InScratch.not_tmp : ¬ InScratch ["tmp"] := by
  have hway : Path.Passes [] (MergePool.scratchOf 0) ["tmp"] := by decide
  exact InScratch.not_passes (.merge 0) hway

/-- No scratch directory stands on a disk if nothing is in the directory of all of them. -/
theorem lacks_inScratch_of_forall {d : Files}
    (h : ∀ e ∈ d.nodes.toList, e.1.head? = some "tmp" → e.1 = ["tmp"]) : d.Lacks InScratch := by
  refine Disk.lacks_of_forall (fun hroot => nomatch hroot.head?_eq) fun e he hin => ?_
  rw [h e he hin.head?_eq] at hin
  exact InScratch.not_tmp hin

/-- A path leads through no scratch directory, and it leads to none. -/
def AvoidsScratch (cwd : Location) (path : String) : Prop :=
  ∀ m, Path.Passes cwd path m ∨ m = Path.place cwd path → ¬ InScratch m

theorem avoidsScratch_of_forall {cwd : Location} {path : String}
    (h : ∀ m ∈ Path.way (Path.start cwd path) (Path.segments path.toList) ++ [Path.place cwd path],
      m.head? ≠ some "tmp") : AvoidsScratch cwd path := by
  intro m hm hin
  refine h m ?_ hin.head?_eq
  rw [List.mem_append, Path.mem_way, List.mem_singleton]
  exact hm

/-- What is left of producing some files: the files, and the directories on the ways to them and to
the scratch directories. -/
def producing (cwd : Location) (outputs : String → Prop) : Disk.Scope where
  files l := ∃ path, outputs path ∧ l = Path.place cwd path
  ways l := (∃ path, outputs path ∧ Path.Passes cwd path l) ∨
    ∃ scratch, IsScratch scratch ∧ Path.Passes cwd scratch l

/-- The directories on the ways to some files and to the scratch directories. -/
def making (cwd : Location) (outputs : String → Prop) : Disk.Scope :=
  { producing cwd outputs with files := fun _ => False }

/-- What producing files may change while work goes on in a scratch directory. -/
def producingIn (scratch : String) (cwd : Location) (outputs : String → Prop) : Disk.Scope :=
  { producing cwd outputs with scratch := (Path.place [] scratch <+: ·) }

/-- Files that avoid the scratch directories leave them bare. -/
theorem lacks_of_producing {cwd : Location} {outputs : String → Prop} {d d' : Files}
    (havoids : ∀ path, outputs path → AvoidsScratch cwd path)
    (hd : d.Evolves (producing cwd outputs) d') (hlacks : d.Lacks InScratch) :
    d'.Lacks InScratch := by
  refine hd.lacks hlacks (fun l _ => id) ?_ ?_
  · rintro l hl ⟨path, hpath, rfl⟩
    exact havoids path hpath _ (.inr rfl) hl
  · rintro l hl (⟨path, hpath, hway⟩ | ⟨scratch, hscratch, hway⟩)
    · exact havoids path hpath l (.inl hway) hl
    · exact InScratch.not_passes hscratch hway hl

/-- **A scratch directory is made on a way that is made for all of them.** -/
theorem IsScratch.evolves_makeDirs {scratch : String} (h : IsScratch scratch) {d d' : Files}
    (hd : Files.makeDirs d scratch = .ok d') (outputs : String → Prop) :
    d.Evolves (producingIn scratch d.cwd outputs) d' := by
  obtain ⟨name, hplace, hplace'⟩ := h.place_eq d.cwd
  refine Disk.evolves_makeDirs (Files.makeDirs_eq_ok_iff.mp hd) fun m hm => ?_
  rcases hm with hm | rfl
  · exact .inl (.inr ⟨scratch, h, hm⟩)
  · refine .inr ?_
    rw [hplace, ← hplace']
    exact List.prefix_refl _

/-- Directories are made among other things. -/
theorem evolves_producing_of_making {cwd : Location} {outputs : String → Prop} {d d' : Files}
    (h : d.Evolves (making cwd outputs) d') : d.Evolves (producing cwd outputs) d' :=
  h.mono (fun _ => id) (fun _ hl => absurd hl id) fun _ => .inl

/-- The directories above a file are on the way to it. -/
theorem evolves_making_of_makeDirs {d d' : Files} {path : String}
    (hd : Files.makeDirs d ((Path.parent path).getD "") = .ok d') :
    d.Evolves (making d.cwd (· = path)) d' :=
  Disk.evolves_makeAbove (Files.makeDirs_eq_ok_iff.mp hd) fun _ hm => .inl (.inl ⟨path, rfl, hm⟩)

/-- **Work in a scratch directory fails at once, or it is done between making the directory and taking
it away.**  If it changes nothing else but files that it produces, then these are all that is left of
it. -/
theorem Work.withScratch_steps {σ α : Type} {scratch : String} (h : IsScratch scratch)
    {work : Work σ α} {w w' : World σ} {result : Except Stop α} {outputs : String → Prop}
    (hlacks : w.disk.Lacks InScratch)
    (havoids : ∀ path, outputs path → AvoidsScratch w.disk.cwd path)
    (hrun : (withScratch scratch work).run.run w = (result, w')) :
    (w' = w ∧ ∃ e, result = .error (.failed e)) ∨
      ∃ d middle, w.disk.Evolves (producingIn scratch w.disk.cwd fun _ => False) d ∧
        work.run.run { w with disk := d } = (result, middle) ∧
        (d.Evolves (producingIn scratch w.disk.cwd outputs) middle.disk →
          middle.disk.Evolves { scratch := (Path.place [] scratch <+: ·) } w'.disk ∧
          w.disk.Evolves (producing w.disk.cwd outputs) w'.disk ∧ w'.disk.Lacks InScratch) := by
  rw [run_withScratch] at hrun
  split at hrun
  · next e _ =>
      cases hrun
      exact .inl ⟨rfl, e, rfl⟩
  · next d hd =>
      obtain ⟨name, hplace, hplace'⟩ := h.place_eq w.disk.cwd
      have hin : ∀ {l}, Path.place [] scratch <+: l → InScratch l := fun hl => ⟨scratch, h, hl⟩
      have hmade : ∀ outputs, w.disk.Evolves (producingIn scratch w.disk.cwd outputs) d :=
        h.evolves_makeDirs hd
      match hworked : work.run.run { w with disk := d } with
      | (worked, middle) =>
          rw [hworked] at hrun
          cases hrun
          refine .inr ⟨d, middle, hmade _, hworked, fun hmiddle => ?_⟩
          have hcwd : middle.disk.cwd = w.disk.cwd := hmiddle.cwd.trans (hmade outputs).cwd
          have hmiddlePlace : Path.place middle.disk.cwd scratch = Path.place [] scratch := by
            rw [hcwd, hplace, hplace']
          have hne : Path.place middle.disk.cwd scratch ≠ [] := by
            rw [hmiddlePlace, hplace']
            exact nofun
          have hremoved : ∀ s : Disk.Scope, (∀ l, Path.place [] scratch <+: l → s.scratch l) →
              middle.disk.Evolves s (Files.removeTree middle.disk scratch) := fun s hs =>
            Files.evolves_removeTree hne fun m hm => hs m (by rwa [hmiddlePlace] at hm)
          -- the scratch directory is where it was made, so it is found when it is taken away
          have hthere : middle.disk.resolve scratch =
              .ok (Path.place middle.disk.cwd scratch) := by
            have hfound := Disk.find?_of_makeDirs (Files.makeDirs_eq_ok_iff.mp hd) h.isEmpty
            obtain ⟨hway, -⟩ := Disk.find?_eq_some_iff.mp hfound
            have hresolve := Disk.resolve_eq_ok_iff.mpr ⟨hway.1, hway.2, rfl⟩
            rw [hmiddle.resolve_eq (fun m hm hl => InScratch.not_passes h hm (hin hl)) hresolve,
              hmiddle.cwd]
          have hgone : (Files.removeTree middle.disk scratch).Lacks (Path.place [] scratch <+: ·) := by
            have hlacks' := Files.lacks_removeTree hne hthere
            rwa [hmiddlePlace] at hlacks'
          have hlasting : w.disk.Evolves (producing w.disk.cwd outputs)
              (Files.removeTree middle.disk scratch) :=
            (((hmade outputs).trans hmiddle).trans (hremoved _ fun _ => id)).settle
              (fun l hl => hlacks l (hin hl)) hgone
          exact ⟨hremoved _ fun _ => id, hlasting, lacks_of_producing havoids hlasting hlacks⟩

/-- **Work that produces a file in a scratch directory leaves the file behind, and the scratch
directory is gone.** -/
theorem Work.withScratch_cases {σ α : Type} {scratch target : String} (h : IsScratch scratch)
    {work : Work σ α} {w w' : World σ} {result : Except Stop α}
    (hwork : work.Evolves w.disk.cwd (producingIn scratch w.disk.cwd (· = target)))
    (hend : ∀ {w w' : World σ} {a}, work.run.run w = (.ok a, w') →
      ∃ content, w'.disk.find? target = some (.file content))
    (hlacks : w.disk.Lacks InScratch) (havoids : AvoidsScratch w.disk.cwd target)
    (hrun : (withScratch scratch work).run.run w = (result, w')) :
    w.disk.Evolves (producing w.disk.cwd (· = target)) w'.disk ∧ w'.disk.Lacks InScratch ∧
      ∀ a, result = .ok a → w'.disk.isFile target = true := by
  have havoids' : ∀ path, path = target → AvoidsScratch w.disk.cwd path := by
    rintro path rfl
    exact havoids
  rcases withScratch_steps h hlacks havoids' hrun with
    ⟨rfl, e, rfl⟩ | ⟨d, middle, hmade, hworked, hrest⟩
  · exact ⟨Disk.Evolves.refl _ _, hlacks, nofun⟩
  · have hmiddle := hwork { w with disk := d } hmade.cwd
    rw [hworked] at hmiddle
    obtain ⟨hremoved, hevolves, hlacks'⟩ := hrest hmiddle
    refine ⟨hevolves, hlacks', ?_⟩
    rintro a rfl
    refine hremoved.isFile (fun m hm hl => ?_) (Disk.isFile_iff.mpr (hend hworked))
    rw [hmiddle.cwd, hmade.cwd] at hm
    exact havoids m hm ⟨scratch, h, hl⟩

/-! ### Tasks -/

namespace MergeTask

variable {σ : Type} {tools : Toolchain σ} {o : MergeOptions} {scratch : String} {t : MergeTask}
  {cwd : Location} {s : Disk.Scope}

/-- The files in a scratch directory lie there. -/
theorem place_join_scratch (h : IsScratch scratch) {name : String} (hname : Path.IsName name) :
    Path.place cwd (Path.join scratch name) = Path.place [] scratch ++ [name] := by
  obtain ⟨own, hplace, hplace'⟩ := h.place_eq cwd
  rw [hname.place_join, hplace, hplace']

theorem evolves_writePicture (h : IsScratch scratch) {name : String} (hname : Path.IsName name)
    (hs : ∀ l, Path.place [] scratch <+: l → s.scratch l) (p : Picture) :
    (Work.change fun d => Files.writePicture d (Path.join scratch name) p : Work σ Unit).Evolves
      cwd s := by
  refine Work.evolves_change fun d d' hcwd hd => ?_
  refine Disk.evolves_write (Files.write_of_writePicture hd) (.inr (hs _ ?_))
  rw [place_join_scratch h hname]
  exact List.prefix_append _ _

/-- A call that writes into the scratch directory stays there. -/
theorem evolves_call {α : Type} {c : Call σ α} (h : IsScratch scratch) {name : String}
    (hname : Path.IsName name) (hs : ∀ l, Path.place [] scratch <+: l → s.scratch l)
    (hc : c.StaysBeside (Path.join scratch name)) : (Work.call c).Evolves cwd s := by
  refine Work.evolves_call hc fun l hl => hs l ?_
  rwa [place_join_scratch h hname, List.dropLast_concat] at hl

theorem evolves_fitMask (htools : tools.Tidy) (h : IsScratch scratch) {name : String}
    (hname : Path.IsName name) (hs : ∀ l, Path.place [] scratch <+: l → s.scratch l)
    (width height : Nat) (mask : String × Nat × Nat) :
    (fitMask tools width height (Path.join scratch name) mask).Evolves cwd s := by
  obtain ⟨path, w, k⟩ := mask
  unfold fitMask
  dsimp only
  split
  · exact Work.evolves_pure cwd s path
  · refine (evolves_call h hname hs (htools.resize _ _ _ _)).bind fun _ => ?_
    exact Work.evolves_pure cwd s _

theorem evolves_stageMask (h : IsScratch scratch)
    (hs : ∀ l, Path.place [] scratch <+: l → s.scratch l) (input : MaskInput) :
    (stageMask scratch input : Work σ _).Evolves cwd s := by
  cases input with
  | asset mask =>
      refine (evolves_writePicture h (by decide) hs mask.picture).bind fun _ => ?_
      exact Work.evolves_pure cwd s _
  | file path =>
      refine (Work.evolves_look _).bind fun size => ?_
      exact Work.evolves_pure cwd s _

theorem evolves_stage (htools : tools.Tidy) (h : IsScratch scratch)
    (hs : ∀ l, Path.place [] scratch <+: l → s.scratch l) (t : MergeTask) :
    (stage tools scratch (Path.join scratch "out.png") t).Evolves cwd s := by
  unfold stage
  split
  · exact evolves_writePicture h (by decide) hs _
  · refine (evolves_writePicture h (by decide) hs _).bind fun _ => ?_
    refine (evolves_stageMask h hs _).bind fun mask => ?_
    refine (evolves_fitMask htools h (by decide) hs _ _ mask).bind fun fitted => ?_
    exact evolves_call h (by decide) hs (htools.copyAlpha _ _ _)

theorem evolves_publish (htools : tools.Tidy) (h : IsScratch scratch)
    (hs : ∀ l, Path.place [] scratch <+: l → s.scratch l)
    (hfiles : s.files (Path.place cwd (t.target o))) :
    (t.publish tools o scratch).Evolves cwd s := by
  have hcopy : (Work.change fun d =>
      Files.copy d (Path.join scratch "out.png") (t.target o) : Work σ Unit).Evolves cwd s := by
    refine Work.evolves_change fun d d' hcwd hd => ?_
    refine Disk.evolves_copy (Files.copy_eq_ok_iff.mp hd) (.inl ?_)
    rwa [hcwd]
  have hend : (Work.change (fun d =>
      Files.copy d (Path.join scratch "out.png") (t.target o)) >>= fun _ =>
        pure TaskStatus.written : Work σ TaskStatus).Evolves cwd s :=
    hcopy.bind fun _ => Work.evolves_pure cwd s _
  unfold publish
  refine (evolves_stage htools h hs t).bind fun _ => ?_
  split
  · exact (evolves_call h (by decide) hs (htools.quantize _)).bind fun _ => hend
  · exact hend

/-- An output that is published is written, and it is found under its path. -/
theorem find?_of_publish {status : TaskStatus} {w w' : World σ}
    (hrun : (t.publish tools o scratch).run.run w = (.ok status, w')) :
    status = .written ∧ ∃ content, w'.disk.find? (t.target o) = some (.file content) := by
  -- both ways of publishing end with a copy
  have hend : ∀ {w w' : World σ}, (Work.change (fun d =>
      Files.copy d (Path.join scratch "out.png") (t.target o)) >>= fun _ =>
        pure TaskStatus.written : Work σ TaskStatus).run.run w = (.ok status, w') →
      status = .written ∧ ∃ content, w'.disk.find? (t.target o) = some (.file content) := by
    intro w w' hrun
    obtain ⟨_, middle, hchange, hpure⟩ := Work.exists_of_run_bind hrun
    cases hpure
    exact ⟨rfl, Work.find?_of_copy hchange⟩
  unfold publish at hrun
  obtain ⟨_, _, -, hrun⟩ := Work.exists_of_run_bind hrun
  split at hrun
  · obtain ⟨_, _, -, hrun⟩ := Work.exists_of_run_bind hrun
    exact hend hrun
  · exact hend hrun

/-- **A task looks for its output first.**  If it is there, nothing is done, unless that is forced;
otherwise the directories above are made. -/
theorem run_job (tools : Toolchain σ) (o : MergeOptions) (scratch : String) (t : MergeTask)
    (w : World σ) :
    (t.job tools o scratch).run.run w =
      if w.disk.exists? (t.target o) && !o.force then (.ok .cached, w)
      else
        match Files.makeDirs w.disk ((Path.parent (t.target o)).getD "") with
        | .error e => (.error (.failed e), w)
        | .ok d => (Work.withScratch scratch (t.publish tools o scratch)).run.run { w with disk := d } := by
  rw [job, Work.run_bind, Work.look, Work.run_call]
  show ((if w.disk.exists? (t.target o) && !o.force then _ else _ : Work σ TaskStatus).run.run w) = _
  split
  · rfl
  · rw [Work.run_bind, Work.change, Work.run_call]
    cases Files.makeDirs w.disk ((Path.parent (t.target o)).getD "") <;> rfl

/-- **A task that ends well has found its output**, which was there and was not to be produced again,
**or it has written it.** -/
theorem status_of_run_job {w w' : World σ} {status : TaskStatus}
    (hrun : (t.job tools o scratch).run.run w = (.ok status, w')) :
    (status = .cached ∧ w' = w ∧ w.disk.exists? (t.target o) = true ∧ o.force = false) ∨
      (status = .written ∧ ¬ (w.disk.exists? (t.target o) = true ∧ o.force = false)) := by
  rw [run_job] at hrun
  split at hrun
  · next hpresent =>
      cases hrun
      rw [Bool.and_eq_true, Bool.not_eq_true'] at hpresent
      exact .inl ⟨rfl, rfl, hpresent⟩
  · next hneeded =>
      rw [Bool.and_eq_true, Bool.not_eq_true'] at hneeded
      refine .inr ⟨?_, hneeded⟩
      split at hrun
      · cases hrun
      · rw [Work.run_withScratch] at hrun
        split at hrun
        · cases hrun
        · next d _ e _ =>
            match hpublish : (t.publish tools o scratch).run.run { w with disk := e } with
            | (published, middle) =>
                rw [hpublish] at hrun
                cases hrun
                exact (find?_of_publish hpublish).1

/-- Without a file in its place, or if that is forced, a task does not find its output. -/
theorem ne_cached_of_run_job {w w' : World σ} {result : Except Stop TaskStatus}
    (hneeded : o.force = true ∨ w.disk.exists? (t.target o) = false)
    (hrun : (t.job tools o scratch).run.run w = (result, w')) : result ≠ .ok .cached := by
  rintro rfl
  rcases status_of_run_job hrun with ⟨-, -, hthere, hforce⟩ | ⟨hwritten, -⟩
  · rw [hthere, hforce] at hneeded
    rcases hneeded with h | h <;> cases h
  · cases hwritten

/-- **A task finds its output or fails at once, or it makes the directories above its output** and
goes on in its scratch directory. -/
theorem job_steps {w w' : World σ} {result : Except Stop TaskStatus}
    (hlacks : w.disk.Lacks InScratch) (havoids : AvoidsScratch w.disk.cwd (t.target o))
    (hrun : (t.job tools o scratch).run.run w = (result, w')) :
    w' = w ∧ (∀ status, result = .ok status → status = .cached ∧ w.disk.exists? (t.target o) = true) ∨
      ∃ d, Files.makeDirs w.disk ((Path.parent (t.target o)).getD "") = .ok d ∧
        w.disk.Evolves (making w.disk.cwd (· = t.target o)) d ∧ d.Lacks InScratch ∧
        AvoidsScratch d.cwd (t.target o) ∧
        (Work.withScratch scratch (t.publish tools o scratch)).run.run { w with disk := d } =
          (result, w') := by
  rw [run_job] at hrun
  split at hrun
  · next hpresent =>
      cases hrun
      rw [Bool.and_eq_true] at hpresent
      exact .inl ⟨rfl, fun status hstatus => ⟨(Except.ok.inj hstatus).symm, hpresent.1⟩⟩
  · split at hrun
    · cases hrun
      exact .inl ⟨rfl, nofun⟩
    · next d hd =>
        have hmade := evolves_making_of_makeDirs hd
        have havoids' : AvoidsScratch d.cwd (t.target o) := by
          rwa [hmade.cwd]
        refine .inr ⟨d, hd, hmade, ?_, havoids', hrun⟩
        refine lacks_of_producing ?_ (evolves_producing_of_making hmade) hlacks
        rintro path rfl
        exact havoids

/-- **Once its directories are made a task changes its output alone**, which is a file if the task
ends well. -/
theorem job_cases_of_made (htools : tools.Tidy) (h : IsScratch scratch) {w w' : World σ}
    {result : Except Stop TaskStatus} (hlacks : w.disk.Lacks InScratch)
    (havoids : AvoidsScratch w.disk.cwd (t.target o))
    (hrun : (t.job tools o scratch).run.run w = (result, w')) :
    w' = w ∧ (∀ status, result = .ok status → status = .cached ∧ w.disk.exists? (t.target o) = true) ∨
      ∃ d, Files.makeDirs w.disk ((Path.parent (t.target o)).getD "") = .ok d ∧
        w.disk.Evolves (producing w.disk.cwd (· = t.target o)) d ∧
        d.Evolves (producing w.disk.cwd (· = t.target o)) w'.disk ∧ w'.disk.Lacks InScratch ∧
        ∀ status, result = .ok status → w'.disk.isFile (t.target o) = true := by
  refine (job_steps hlacks havoids hrun).imp_right fun ⟨d, hd, hmade, hlacks', havoids', hrun'⟩ => ?_
  obtain ⟨hevolves, hrest⟩ := Work.withScratch_cases h
    (evolves_publish htools h (fun l hl => hl) ⟨_, rfl, rfl⟩)
    (fun hpublish => (find?_of_publish hpublish).2) hlacks' havoids' hrun'
  have hcwd : d.cwd = w.disk.cwd := hmade.cwd
  rw [hcwd] at hevolves
  exact ⟨d, hd, evolves_producing_of_making hmade, hevolves, hrest⟩

/-- **A task leaves its output and directories behind, and its scratch directory is gone.**  If the
output was written, it is a file. -/
theorem job_cases (htools : tools.Tidy) (h : IsScratch scratch) {w w' : World σ}
    {result : Except Stop TaskStatus} (hlacks : w.disk.Lacks InScratch)
    (havoids : AvoidsScratch w.disk.cwd (t.target o))
    (hrun : (t.job tools o scratch).run.run w = (result, w')) :
    w.disk.Evolves (producing w.disk.cwd (· = t.target o)) w'.disk ∧ w'.disk.Lacks InScratch ∧
      ∀ status, result = .ok status → w'.disk.exists? (t.target o) = true ∧
        (status = .written → w'.disk.isFile (t.target o) = true) := by
  rcases job_cases_of_made htools h hlacks havoids hrun with
    ⟨rfl, hfound⟩ | ⟨d, -, hmade, hevolves, hlacks', hfile⟩
  · refine ⟨Disk.Evolves.refl _ _, hlacks, fun status hstatus => ?_⟩
    obtain ⟨rfl, hthere⟩ := hfound status hstatus
    exact ⟨hthere, nofun⟩
  · refine ⟨hmade.trans hevolves, hlacks', fun status hstatus => ?_⟩
    have hthere := hfile status hstatus
    exact ⟨Disk.exists?_of_isFile hthere, fun _ => hthere⟩

end MergeTask

end CharacterArt
