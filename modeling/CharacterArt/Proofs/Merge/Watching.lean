import CharacterArt.Proofs.Merge.Ends

/-!
# Tools that are watched

A tool that is watched does what it does anyway, and beside its own state it keeps a record of its
calls.  The record has the sizes of the pictures that a call is given, as they stand in their files
when the call is made.  So what is said of the calls that some work makes is said of the record that
it leaves, and watching changes nothing else.

## Main Definitions

* `Sighting` — a call in the record
* `Toolchain.watched` — a tool that is watched
* `Work.Sees` — watched work does what the work does, and certain calls are seen

## Main Results

* `Work.Sees.bind`, `Work.Sees.withScratch` — the calls of work in several parts
-/

namespace CharacterArt

/-- A call that was made, with the sizes of the pictures that it was given. -/
inductive Sighting where
  | resize (source : Option (Nat × Nat)) (size : Nat × Nat)
  | copyAlpha (base mask : Option (Nat × Nat))
  deriving DecidableEq, Repr

/-- The size of the picture in a file, if there is one. -/
def Files.size? (d : Files) (path : String) : Option (Nat × Nat) :=
  (readPictureSize d path).toOption

theorem Files.size?_eq_some_iff {d : Files} {path : String} {size : Nat × Nat} :
    d.size? path = some size ↔ readPictureSize d path = .ok size := by
  unfold size?
  cases readPictureSize d path with
  | error e => exact iff_of_false nofun nofun
  | ok own => exact ⟨fun h => congrArg Except.ok (Option.some.inj h), fun h => by cases h; rfl⟩

section Watched

variable {σ α : Type}

/-- A world with a record of the calls so far. -/
def World.watched (w : World σ) (seen : List Sighting) : World (σ × List Sighting) :=
  ⟨w.disk, w.tools, seen⟩

@[simp] theorem World.disk_watched (w : World σ) (seen : List Sighting) :
    (w.watched seen).disk = w.disk := rfl

/-- A call that is made and noted in the record. -/
def Call.watched (see : Files → List Sighting) (c : Call σ α) : Call (σ × List Sighting) α :=
  fun w =>
    let (result, next) := c ⟨w.disk, w.tools.1⟩
    (result, next.watched (w.tools.2 ++ see w.disk))

/-- A tool whose resizing and joining is watched. -/
def Toolchain.watched (tools : Toolchain σ) : Toolchain (σ × List Sighting) where
  probe image := (tools.probe image).watched fun _ => []
  resize source width height target := (tools.resize source width height target).watched fun d =>
    [.resize (d.size? source) (width, height)]
  copyAlpha base mask target := (tools.copyAlpha base mask target).watched fun d =>
    [.copyAlpha (d.size? base) (d.size? mask)]
  quantize image := (tools.quantize image).watched fun _ => []
  canQuantize := tools.canQuantize

end Watched

namespace Work

variable {σ α β : Type} {w : World σ} {calls more : List Sighting}

/-- Watched work does what the work does, and certain calls are seen, or the first of them if it
stops. -/
def Sees (x : Work (σ × List Sighting) α) (y : Work σ α) (w : World σ) (calls : List Sighting) :
    Prop :=
  ∃ seen, seen <+: calls ∧ (∀ a, (y.run.run w).1 = .ok a → seen = calls) ∧
    ∀ before, x.run.run (w.watched before) =
      ((y.run.run w).1, (y.run.run w).2.watched (before ++ seen))

theorem sees_pure (a : α) (w : World σ) :
    (pure a : Work (σ × List Sighting) α).Sees (pure a) w [] := by
  refine ⟨[], List.prefix_rfl, fun _ _ => rfl, fun before => ?_⟩
  rw [List.append_nil]
  rfl

/-- Looking at files is no call. -/
theorem sees_look (f : Files → Except Error α) (w : World σ) :
    (look f : Work (σ × List Sighting) α).Sees (look f) w [] := by
  refine ⟨[], List.prefix_rfl, fun _ _ => rfl, fun before => ?_⟩
  rw [List.append_nil, look, run_call, look, run_call, World.disk_watched]
  cases f w.disk <;> rfl

/-- Changing files is no call. -/
theorem sees_change (f : Files → Except Error Files) (w : World σ) :
    (change f : Work (σ × List Sighting) Unit).Sees (change f) w [] := by
  refine ⟨[], List.prefix_rfl, fun _ _ => rfl, fun before => ?_⟩
  rw [List.append_nil, change, run_call, change, run_call, World.disk_watched]
  cases f w.disk <;> rfl

/-- A call is seen, however it ends. -/
theorem sees_call (see : Files → List Sighting) (c : Call σ α) (w : World σ) :
    (call (c.watched see)).Sees (call c) w (see w.disk) :=
  ⟨see w.disk, List.prefix_rfl, fun _ _ => rfl, fun _ => rfl⟩

/-- **The calls of work in two parts are those of both.** -/
theorem Sees.bind {x : Work (σ × List Sighting) α} {y : Work σ α}
    {f : α → Work (σ × List Sighting) β} {g : α → Work σ β} (hx : x.Sees y w calls)
    (hf : ∀ a v, y.run.run w = (.ok a, v) → (f a).Sees (g a) v more) :
    (x >>= f).Sees (y >>= g) w (calls ++ more) := by
  obtain ⟨seen, hprefix, hall, hrun⟩ := hx
  unfold Sees
  simp only [run_bind, hrun]
  match hy : y.run.run w with
  | (.error e, v) =>
      exact ⟨seen, hprefix.trans (List.prefix_append calls more), nofun, fun _ => rfl⟩
  | (.ok a, v) =>
      obtain ⟨seen', hprefix', hall', hrun'⟩ := hf a v hy
      obtain rfl := hall a (by rw [hy])
      refine ⟨seen ++ seen', (List.prefix_append_right_inj seen).mpr hprefix', ?_, ?_⟩
      · exact fun b hb => congrArg (seen ++ ·) (hall' b hb)
      · intro before
        rw [← List.append_assoc]
        exact hrun' (before ++ seen)

/-- Work that goes on without calls makes the calls of its beginning. -/
theorem Sees.bind_silent {x : Work (σ × List Sighting) α} {y : Work σ α}
    {f : α → Work (σ × List Sighting) β} {g : α → Work σ β} (hx : x.Sees y w calls)
    (hf : ∀ a v, y.run.run w = (.ok a, v) → (f a).Sees (g a) v []) :
    (x >>= f).Sees (y >>= g) w calls := by
  rw [← List.append_nil calls]
  exact hx.bind hf

/-- **Work in a scratch directory makes the calls of the work.** -/
theorem Sees.withScratch {scratch : String} {x : Work (σ × List Sighting) α} {y : Work σ α}
    (h : ∀ d, Files.makeDirs w.disk scratch = .ok d → x.Sees y { w with disk := d } calls) :
    (withScratch scratch x).Sees (withScratch scratch y) w calls := by
  unfold Sees
  simp only [run_withScratch, World.disk_watched]
  cases hd : Files.makeDirs w.disk scratch with
  | error e =>
      refine ⟨[], List.nil_prefix, nofun, fun before => ?_⟩
      rw [List.append_nil]
  | ok d =>
      obtain ⟨seen, hprefix, hall, hrun⟩ := h d hd
      refine ⟨seen, hprefix, hall, fun before => ?_⟩
      have hwork : x.run.run ⟨d, (w.watched before).tools⟩ = _ := hrun before
      dsimp only
      rw [hwork]
      rfl

end Work

end CharacterArt
