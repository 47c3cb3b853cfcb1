import CharacterArt.Proofs.Disk.Names

/-!
# Routes

Relative paths that are joined to a base lead some steps up from it, and from there down by names.  An
absolute one leads down from the root.  This normal form can be read off the spelling without the base,
and it tells from which bases the paths lead to a place below.

## Main Definitions

* `Path.Route`, `Path.Route.of` — steps up and names that lead down, and those of joined paths
* `Path.Route.lead` — where a route leads from a place
* `Path.IsBelow` — a place lies below another one
* `Path.Route.StaysBelow` — a route leads to a place below the one that it starts from

## Main Results

* `Path.place_foldl_join` — joined paths lead where their route leads
* `Path.Route.isBelow_lead_iff` — when a route leads to a place below
* `Path.Route.forall_staysBelow_iff` — when it does so from every place
-/

namespace CharacterArt.Path

/-- A place lies below another one. -/
def IsBelow (above l : Location) : Prop :=
  above <+: l ∧ above ≠ l

instance {above l : Location} : Decidable (IsBelow above l) :=
  inferInstanceAs (Decidable (_ ∧ _))

theorem isBelow_append_left (front above l : Location) :
    IsBelow (front ++ above) (front ++ l) ↔ IsBelow above l := by
  rw [IsBelow, IsBelow, List.prefix_append_right_inj, ne_eq, List.append_cancel_left_eq]

theorem isBelow_nil_iff {l : Location} : IsBelow [] l ↔ l ≠ [] :=
  ⟨fun h => h.2.symm, fun h => ⟨List.nil_prefix, h.symm⟩⟩

/-- Steps up, and from there down by names. -/
structure Route where
  /-- Whether the root is where the names lead down from. -/
  isAbsolute : Bool := false
  up : Nat := 0
  down : List String := []
  deriving DecidableEq, Repr

namespace Route

/-- A route with one more segment. -/
def next (r : Route) (s : List Char) : Route :=
  if isIdle s then r
  else if s = ['.', '.'] then
    if r.down = [] then { r with up := r.up + 1 } else { r with down := r.down.dropLast }
  else { r with down := r.down ++ [String.ofList s] }

/-- A route with one more path, which replaces it if it is absolute. -/
def join (r : Route) (path : String) : Route :=
  (segments path.toList).foldl next (if Path.isAbsolute path then { isAbsolute := true } else r)

/-- The route of paths that are joined one after the other. -/
def of (paths : List String) : Route :=
  paths.foldl join {}

/-- Where a route leads from a place. -/
def lead (r : Route) (l : Location) : Location :=
  (if r.isAbsolute then [] else l.take (l.length - r.up)) ++ r.down

/-- The names that a route has to lead down again to come back to where it starts. -/
def back (r : Route) (l : Location) : Location :=
  if r.isAbsolute then l else l.drop (l.length - r.up)

/-- A route leads to a place below the one that it starts from. -/
def StaysBelow (r : Route) (l : Location) : Prop :=
  IsBelow (r.back l) r.down

instance {r : Route} {l : Location} : Decidable (r.StaysBelow l) :=
  inferInstanceAs (Decidable (IsBelow _ _))

variable {r : Route} {s : List Char} {parts : List (List Char)} {l cwd : Location} {path : String}

/-! ### Where routes lead -/

theorem lead_empty (l : Location) : ({} : Route).lead l = l := by
  simp [lead]

/-- One more segment leads on from where the route leads. -/
theorem lead_next (r : Route) (s : List Char) (l : Location) :
    (r.next s).lead l = follow (r.lead l) s := by
  unfold next follow
  split
  · rfl
  · split
    · split
      · next hdown =>
          -- nothing but the way up is left, so it goes on
          rw [lead, lead, hdown, List.append_nil, List.append_nil]
          dsimp only
          split
          · rfl
          · rw [List.dropLast_eq_take, List.length_take, List.take_take]
            congr 1
            omega
      · next hdown => rw [lead, lead, List.dropLast_append_of_ne_nil hdown]
    · rw [lead, lead, List.append_assoc]

theorem lead_foldl_next (r : Route) (parts : List (List Char)) (l : Location) :
    (parts.foldl next r).lead l = parts.foldl follow (r.lead l) := by
  induction parts generalizing r with
  | nil => rfl
  | cons s rest ih => rw [List.foldl_cons, ih, lead_next, List.foldl_cons]

/-- One more path leads on from where the route leads. -/
theorem place_join_of_lead {base : String} {root : Location} (h : place cwd base = r.lead root)
    (path : String) : place cwd (Path.join base path) = (r.join path).lead root := by
  rw [join, lead_foldl_next]
  by_cases habsolute : Path.isAbsolute path = true
  · rw [Path.join, if_pos habsolute, if_pos habsolute, place, start, if_pos habsolute]
    rfl
  · rw [if_neg habsolute, place_join base (by simpa using habsolute), h]

end Route

/-- **Joined paths lead where their route leads.** -/
theorem place_foldl_join (base : String) (paths : List String) (cwd : Location) :
    place cwd (paths.foldl join base) = (Route.of paths).lead (place cwd base) := by
  have hall : ∀ (r : Route) (path : String), place cwd path = r.lead (place cwd base) →
      place cwd (paths.foldl join path) = (paths.foldl Route.join r).lead (place cwd base) := by
    induction paths with
    | nil => exact fun r path h => h
    | cons first rest ih => exact fun r path h => ih _ _ (Route.place_join_of_lead h first)
  exact hall {} base (Route.lead_empty _).symm

namespace Route

variable {r : Route} {l : Location} {file : String} {paths : List String}

/-! ### Routes that lead to a place below -/

/-- **When a route leads to a place below the one that it starts from.** -/
theorem isBelow_lead_iff : IsBelow l (r.lead l) ↔ r.StaysBelow l := by
  unfold StaysBelow back lead
  split
  · rw [List.nil_append]
  · conv_lhs =>
      left
      rw [← List.take_append_drop (l.length - r.up) l]
    exact isBelow_append_left _ _ _

/-- **When a route does so from every place**: it leads down from where it starts. -/
theorem forall_staysBelow_iff :
    (∀ l, r.StaysBelow l) ↔ r.isAbsolute = false ∧ r.up = 0 ∧ r.down ≠ [] := by
  constructor
  · intro h
    have hrelative : r.isAbsolute = false := by
      rw [← Bool.not_eq_true]
      intro habsolute
      have hself := h r.down
      rw [StaysBelow, back, if_pos habsolute] at hself
      exact hself.2 rfl
    have hback : ∀ l : Location, IsBelow (l.drop (l.length - r.up)) r.down := by
      intro l
      have hl := h l
      rwa [StaysBelow, back, hrelative, if_neg Bool.false_ne_true] at hl
    have hne : r.down ≠ [] := by
      have hroot := hback []
      rwa [List.drop_nil, isBelow_nil_iff] at hroot
    refine ⟨hrelative, Nat.eq_zero_of_not_pos fun hpos => ?_, hne⟩
    obtain ⟨name, rest, hdown⟩ := List.exists_cons_of_ne_nil hne
    -- a place with another name does not lie above where the names lead
    have hother := (hback [name ++ "x"]).1
    rw [List.length_singleton, Nat.sub_eq_zero_of_le hpos, List.drop_zero, hdown,
      List.cons_prefix_cons] at hother
    have hlength := congrArg String.length hother.1
    rw [String.length_append] at hlength
    exact absurd hlength (by simp)
  · rintro ⟨hrelative, hup, hdown⟩ l
    rw [StaysBelow, back, hrelative, if_neg Bool.false_ne_true, hup, Nat.sub_zero, List.drop_length]
    exact isBelow_nil_iff.mpr hdown

end Route

end CharacterArt.Path
