import CharacterArt.Proofs.Disk.Evolution

/-!
# Disks that agree on some places

Two disks may differ and still look the same to whoever only visits some places.  Every operation
visits the places on the way of its paths and those that the paths lead to, so disks that agree there
give it the same answer, and they agree on these places afterwards.

## Main Definitions

* `Path.Visits` — the places that a path leads through or to
* `Disk.AgreesOn` — two disks are the same in some places
* `Disk.SameEnd` — two results are one error, or disks that agree

## Main Results

* `Disk.AgreesOn.read_eq`, `Disk.AgreesOn.exists?_eq` — what is looked up
* `Disk.AgreesOn.write`, `Disk.AgreesOn.copy`, `Disk.AgreesOn.makeDirs`, `Disk.AgreesOn.remove` —
  operations
* `Disk.Evolves.agreesOn` — disks that became others out of sight
-/

namespace CharacterArt

/-- A path leads through a place or to it. -/
def Path.Visits (cwd : Location) (path : String) (l : Location) : Prop :=
  Path.Passes cwd path l ∨ l = Path.place cwd path

namespace Disk

variable {α ε : Type} {places more : Location → Prop} {d d' d'' : Disk α} {l : Location}
  {path source : String}

/-- Two disks are the same in some places. -/
structure AgreesOn (places : Location → Prop) (d d' : Disk α) : Prop where
  cwd_eq : d'.cwd = d.cwd
  node?_eq : ∀ l, places l → d'.node? l = d.node? l

/-- Two results are one error, or disks that are the same in some places. -/
def SameEnd (places : Location → Prop) : Except ε (Disk α) → Except ε (Disk α) → Prop
  | .ok d, .ok d' => d.AgreesOn places d'
  | .error e, .error e' => e' = e
  | .ok _, .error _ | .error _, .ok _ => False

theorem SameEnd.error (e : ε) : SameEnd (α := α) places (.error e) (.error e) :=
  rfl

/-- What results are that end in one way. -/
theorem SameEnd.cases {x x' : Except ε (Disk α)} (h : SameEnd places x x') :
    (∃ e, x = .error e ∧ x' = .error e) ∨
      ∃ d d', x = .ok d ∧ x' = .ok d' ∧ d.AgreesOn places d' := by
  cases x with
  | ok d =>
      cases x' with
      | ok d' => exact .inr ⟨d, d', rfl, rfl, h⟩
      | error e => exact absurd h id
  | error e =>
      cases x' with
      | ok d' => exact absurd h id
      | error e' => exact .inl ⟨e, rfl, congrArg Except.error h⟩

theorem SameEnd.mapError {ε' : Type} {x x' : Except ε (Disk α)} (h : SameEnd places x x')
    (f : ε → ε') : SameEnd places (x.mapError f) (x'.mapError f) := by
  rcases h.cases with ⟨e, rfl, rfl⟩ | ⟨d, d', rfl, rfl, hagrees⟩
  · exact .error (f e)
  · exact hagrees

namespace AgreesOn

theorem refl (places : Location → Prop) (d : Disk α) : d.AgreesOn places d :=
  ⟨rfl, fun _ _ => rfl⟩

theorem trans (h : d.AgreesOn places d') (h' : d'.AgreesOn places d'') : d.AgreesOn places d'' :=
  ⟨h'.cwd_eq.trans h.cwd_eq, fun l hl => (h'.node?_eq l hl).trans (h.node?_eq l hl)⟩

theorem mono (h : d.AgreesOn places d') (hmore : ∀ l, more l → places l) : d.AgreesOn more d' :=
  ⟨h.cwd_eq, fun l hl => h.node?_eq l (hmore l hl)⟩

/-! ### What is looked up -/

/-- A path that visits places on which disks agree leads to one place on both. -/
theorem resolve_eq (h : d.AgreesOn places d') (hpath : ∀ l, Path.Visits d.cwd path l → places l) :
    d'.resolve path = d.resolve path :=
  resolve_congr h.cwd_eq fun m hm => h.node?_eq m (hpath m (.inl hm))

theorem find?_eq (h : d.AgreesOn places d') (hpath : ∀ l, Path.Visits d.cwd path l → places l) :
    d'.find? path = d.find? path :=
  find?_congr h.cwd_eq fun m hm => h.node?_eq m (hpath m hm)

theorem read_eq (h : d.AgreesOn places d') (hpath : ∀ l, Path.Visits d.cwd path l → places l) :
    d'.read path = d.read path :=
  read_congr h.cwd_eq fun m hm => h.node?_eq m (hpath m hm)

theorem exists?_eq (h : d.AgreesOn places d') (hpath : ∀ l, Path.Visits d.cwd path l → places l) :
    d'.exists? path = d.exists? path := by
  rw [exists?, h.find?_eq hpath, exists?]

/-! ### Operations -/

/-- What is put in a place stands there on both disks. -/
theorem put (h : d.AgreesOn places d') (hl : l ≠ []) (n : Node α) :
    (d.put l n).AgreesOn places (d'.put l n) := by
  refine ⟨h.cwd_eq, fun m hm => ?_⟩
  rw [node?_put d' hl, node?_put d hl, h.node?_eq m hm]

/-- **Writing a file ends in one way on disks that agree on its way and on its place.** -/
theorem write (h : d.AgreesOn places d') (hpath : ∀ l, Path.Visits d.cwd path l → places l)
    (content : α) : SameEnd places (d.write path content) (d'.write path content) := by
  unfold Disk.write
  rw [h.resolve_eq hpath]
  cases hresolve : d.resolve path with
  | error f => exact .error f
  | ok l =>
      obtain rfl := (resolve_eq_ok_iff.mp hresolve).2.2
      dsimp only
      rw [h.node?_eq _ (hpath _ (.inr rfl))]
      split
      · exact .error _
      · next hother => exact h.put (ne_nil_of_node? hother) _

/-- **Copying a file ends in one way on disks that agree on both paths.** -/
theorem copy (h : d.AgreesOn places d') (hsource : ∀ l, Path.Visits d.cwd source l → places l)
    (hpath : ∀ l, Path.Visits d.cwd path l → places l) :
    SameEnd places (d.copy source path) (d'.copy source path) := by
  unfold Disk.copy
  rw [h.read_eq hsource]
  cases d.read source with
  | error f => exact .error f
  | ok content => exact h.write hpath content

/-- Following segments and making what is missing ends in one way on disks that agree on the places
that the segments lead through or to. -/
theorem makeAlong {parts : List (List Char)} (h : d.AgreesOn places d')
    (hparts : ∀ m, Path.PassesFrom l parts m ∨ m = parts.foldl Path.follow l → places m) :
    SameEnd places (d.makeAlong l parts) (d'.makeAlong l parts) := by
  induction parts generalizing d d' l with
  | nil => exact h
  | cons part rest ih =>
      obtain ⟨hnext, hrest⟩ := Path.forall_visited_cons hparts
      have hfollow : d'.follow l part = d.follow l part := by
        rw [Disk.follow, h.node?_eq l (hparts l (.inl (Path.passesFrom_cons.mpr (.inl rfl)))),
          Disk.follow]
      unfold Disk.makeAlong
      rw [hfollow]
      cases hfollowed : d.follow l part with
      | error f => exact .error f
      | ok m =>
          obtain ⟨-, -, rfl⟩ := follow_eq_ok_iff.mp hfollowed
          dsimp only
          rw [h.node?_eq _ hnext]
          split
          · next hnone =>
              have hdirectory : d.node? (Path.follow l part) ≠ some .directory := by
                rw [hnone]
                exact (Option.some_ne_none _).symm
              exact ih (h.put (ne_nil_of_node? hdirectory) _) hrest
          · exact ih h hrest
          · exact .error _

/-- **Making directories ends in one way on disks that agree on the way and on the place.** -/
theorem makeDirs (h : d.AgreesOn places d') (hpath : ∀ l, Path.Visits d.cwd path l → places l) :
    SameEnd places (d.makeDirs path) (d'.makeDirs path) := by
  have horigin : d'.origin path = d.origin path := by
    rw [origin, h.cwd_eq, origin]
  unfold Disk.makeDirs
  split
  · exact h
  · rw [horigin]
    cases hstart : d.origin path with
    | error f => exact .error f
    | ok start =>
        obtain ⟨-, rfl⟩ := origin_eq_ok_iff.mp hstart
        dsimp only
        have hnamed : ∀ m, Path.PassesFrom (Path.start d.cwd path) (namedSegments path) m ∨
            m = (namedSegments path).foldl Path.follow (Path.start d.cwd path) → places m :=
          fun m hm => hpath m (visits_of_namedSegments hm)
        rcases (h.makeAlong hnamed).cases with ⟨e, hd, hd'⟩ | ⟨made, made', hd, hd', hmade⟩
        · rw [hd, hd']
          exact .error e
        · have hcwd : made.cwd = d.cwd := (evolves_makeAlong (s := { ways := fun _ => True }) hd
            fun _ _ => .inl trivial).cwd
          have hdirectory : made'.isDirectory path = made.isDirectory path := by
            rw [isDirectory, find?_eq (d := made) hmade (by rwa [hcwd]), isDirectory]
          rw [hd, hd']
          dsimp only
          rw [hdirectory]
          split
          · exact hmade
          · exact .error _

/-- What is taken away is taken away on both disks. -/
theorem remove (h : d.AgreesOn places d') (hl : l ≠ []) :
    (d.remove l).AgreesOn places (d'.remove l) := by
  refine ⟨h.cwd_eq, fun m hm => ?_⟩
  rw [node?_remove d' hl, node?_remove d hl, h.node?_eq m hm]

end AgreesOn

/-- Disks that became others keep agreeing where nothing was in scope and where they agree on what was
in scope. -/
theorem Evolves.agreesOn {s : Scope} {e e' : Disk α} (he : d.Evolves s e) (he' : d'.Evolves s e')
    (h : d.AgreesOn places d') (hscope : e.AgreesOn s.scratch e')
    (hfiles : ∀ l, ¬ s.files l) (hways : ∀ l, ¬ s.ways l) : e.AgreesOn places e' := by
  refine ⟨hscope.cwd_eq, fun l hl => ?_⟩
  have hkeep : ∀ {a b : Disk α}, a.Evolves s b → ¬ s.scratch l → b.node? l = a.node? l := by
    intro a b hab hnot
    cases hab.change l with
    | keep hkeep => exact hkeep
    | scratch hl => exact absurd hl hnot
    | make hl => exact absurd hl (hways l)
    | write hl => exact absurd hl (hfiles l)
  by_cases hl' : s.scratch l
  · exact hscope.node?_eq l hl'
  · rw [hkeep he' hl', hkeep he hl', h.node?_eq l hl]

end Disk

namespace Files

open Disk

variable {places : Location → Prop} {d d' : Files} {path source : String}

theorem sameEnd_makeDirs (h : d.AgreesOn places d')
    (hpath : ∀ l, Path.Visits d.cwd path l → places l) :
    SameEnd places (makeDirs d path) (makeDirs d' path) := by
  have hfault : ∀ e : Files, makeDirs e path = (Disk.makeDirs e path).mapError Error.file := by
    intro e
    unfold makeDirs
    cases Disk.makeDirs e path <;> rfl
  rw [hfault, hfault]
  exact (h.makeDirs hpath).mapError _

theorem sameEnd_copy (h : d.AgreesOn places d')
    (hsource : ∀ l, Path.Visits d.cwd source l → places l)
    (hpath : ∀ l, Path.Visits d.cwd path l → places l) :
    SameEnd places (copy d source path) (copy d' source path) := by
  have hfault : ∀ e : Files, copy e source path = (Disk.copy e source path).mapError Error.file := by
    intro e
    unfold copy
    cases Disk.copy e source path <;> rfl
  rw [hfault, hfault]
  exact (h.copy hsource hpath).mapError _

theorem sameEnd_writePicture (h : d.AgreesOn places d')
    (hpath : ∀ l, Path.Visits d.cwd path l → places l) (p : Picture) :
    SameEnd places (writePicture d path p) (writePicture d' path p) := by
  cases hempty : p.isEmpty with
  | true =>
      rw [writePicture, writePicture, hempty]
      exact .error _
  | false =>
      have hfault : ∀ e : Files, writePicture e path p =
          (Disk.write e path (.picture p)).mapError fun f => Error.picture path f.message := by
        intro e
        rw [writePicture, hempty]
        cases Disk.write e path (.picture p) <;> rfl
      rw [hfault, hfault]
      exact (h.write hpath _).mapError _

/-- What is found in a picture depends on the way and on the place of its file. -/
theorem inspectPicture_congr {α : Type} {f : Content → Option α} (h : d.AgreesOn places d')
    (hpath : ∀ l, Path.Visits d.cwd path l → places l) :
    inspectPicture f d' path = inspectPicture f d path := by
  unfold inspectPicture
  rw [h.read_eq hpath]

theorem readPicture_congr (h : d.AgreesOn places d')
    (hpath : ∀ l, Path.Visits d.cwd path l → places l) : readPicture d' path = readPicture d path :=
  inspectPicture_congr h hpath

/-- A directory is taken away on both disks or on none. -/
theorem agreesOn_removeTree (h : d.AgreesOn places d')
    (hpath : ∀ l, Path.Visits d.cwd path l → places l) (hne : Path.place d.cwd path ≠ []) :
    (removeTree d path).AgreesOn places (removeTree d' path) := by
  unfold removeTree
  rw [h.resolve_eq hpath]
  cases hresolve : d.resolve path with
  | error f => exact h
  | ok l =>
      obtain rfl := (resolve_eq_ok_iff.mp hresolve).2.2
      exact h.remove hne

end Files

end CharacterArt
