import CharacterArt.Proofs.Disk.Names
import CharacterArt.Proofs.Extraction.Plans
import CharacterArt.Proofs.Picture

/-!
# Which requirements an output serves

Requirements that ask for one output share its task: the first one that can be planned decides the
colors and the mask, and every later one only adds its keys.  So the keys of a task tell who is
served, and the color of a task is that of the first one served.

## Main Definitions

* `Sources.outputOf?`, `Sources.keysFor` — the output that a requirement asks for, and its keys
* `Planning.served` — the requirements that the task of an output serves

## Main Results

* `Requirement.key_inj` — a key made of an index tells the owner and the index
* `Planning.exists_first` — what is known of a task from the requirements that it serves
* `Planning.mem_served_iff` — who is served if every mask could be read
-/

namespace CharacterArt

/-! ### Keys -/

/-- **A key made of an index tells the owner and the index**, whatever the owner is called. -/
theorem Requirement.key_inj {r q : Requirement} (h : r.key = q.key) :
    r.owner = q.owner ∧ r.index = q.index := by
  obtain ⟨howner, hindex⟩ := Path.slash_inj (Path.no_slash_toString _) (Path.no_slash_toString _) h
  exact ⟨howner, UInt32.toNat_inj.mp (Path.toString_inj hindex)⟩

namespace Sources

variable {s : Sources} {r : Requirement} {color : Asset} {key : String}

/-- The output that a requirement asks for, if its color was found. -/
def outputOf? (s : Sources) (r : Requirement) : Option String :=
  (s.images[r.colorId]?).map fun color => (s.taskOf r color).outputPath

/-- The result keys of a requirement, none if its color was not found. -/
def keysFor (s : Sources) (r : Requirement) : List String :=
  (s.images[r.colorId]?).elim [] (s.keysOf r)

theorem outputOf?_of_color (h : s.images[r.colorId]? = some color) :
    s.outputOf? r = some (s.taskOf r color).outputPath := by
  rw [outputOf?, h]
  rfl

theorem keysFor_of_color (h : s.images[r.colorId]? = some color) :
    s.keysFor r = s.keysOf r color := by
  rw [keysFor, h]
  rfl

/-- A requirement has the key of its index, and with names as keys also that of its object. -/
theorem mem_keysOf : key ∈ s.keysOf r color ↔
    key = r.key ∨ s.nameKeys = true ∧ key = r.owner ++ "/" ++ color.name := by
  cases hnames : s.nameKeys <;> simp [keysOf, hnames]

end Sources

/-- A task serves the keys that it served before, and those that are added. -/
theorem Plan.mem_keys_serve {p : Plan} {keys : List String} {key : String} :
    key ∈ (p.serve keys).task.keys ↔ key ∈ p.task.keys ∨ key ∈ keys := by
  have hfold : ∀ served : List String, key ∈ keys.foldl (fun served key =>
      if served.contains key then served else served ++ [key]) served ↔
        key ∈ served ∨ key ∈ keys := by
    induction keys with
    | nil => simp
    | cons first rest ih =>
        intro served
        rw [List.foldl_cons, ih, List.mem_cons]
        by_cases hfirst : first ∈ served
        · rw [if_pos (List.contains_iff_mem.mpr hfirst)]
          refine ⟨Or.imp_right .inr, ?_⟩
          rintro (hserved | rfl | hrest)
          · exact .inl hserved
          · exact .inl hfirst
          · exact .inr hrest
        · rw [if_neg (fun h => hfirst (List.contains_iff_mem.mp h)), List.mem_append,
            List.mem_singleton, or_assoc]
  exact hfold p.task.keys

/-- A new plan has the color and the keys of the requirement that it was made for. -/
theorem Plan.task_of_ofChoice {t : MergeTask} {choice : MaskChoice} {p : Plan}
    (h : Plan.ofChoice t choice = .ok p) : p.task.color = t.color ∧ p.task.keys = t.keys := by
  cases choice with
  | mask a =>
      cases h
      exact ⟨rfl, rfl⟩
  | missing =>
      cases h
      exact ⟨rfl, rfl⟩
  | deferred path =>
      cases h
      exact ⟨rfl, rfl⟩
  | failed reason => cases h

namespace Planning

variable {s : Sources} {rs : Requirements} {r q : Requirement} {p : Planning} {path key : String}
  {plan : Plan}

/-! ### Who is served -/

/-- The requirements among some that the task of an output serves: those that ask for the output
when it is planned, or becomes so. -/
def servedFrom (s : Sources) (path : String) : Planning → Requirements → Requirements
  | _, [] => []
  | p, r :: rest =>
    (if s.outputOf? r = some path ∧ path ∈ (p.add s r).plans then [r] else []) ++
      servedFrom s path (p.add s r) rest

/-- The requirements that the task of an output serves, in order. -/
def served (s : Sources) (rs : Requirements) (path : String) : Requirements :=
  servedFrom s path {} rs

theorem servedFrom_append (s : Sources) (path : String) (p : Planning) (front back : Requirements) :
    servedFrom s path p (front ++ back) =
      servedFrom s path p front ++ servedFrom s path (front.foldl (add s) p) back := by
  induction front generalizing p with
  | nil => rfl
  | cons r rest ih => rw [List.cons_append, servedFrom, servedFrom, ih, List.append_assoc,
      List.foldl_cons]

/-- One more requirement is served if it asks for an output that is planned then. -/
theorem served_append_singleton (s : Sources) (rs : Requirements) (r : Requirement) (path : String) :
    served s (rs ++ [r]) path = served s rs path ++
      if s.outputOf? r = some path ∧ path ∈ ((ofRequirements s rs).add s r).plans then [r] else [] := by
  rw [served, servedFrom_append, servedFrom, servedFrom, List.append_nil, ← ofRequirements]
  rfl

theorem ofRequirements_append_singleton (s : Sources) (rs : Requirements) (r : Requirement) :
    ofRequirements s (rs ++ [r]) = (ofRequirements s rs).add s r := by
  rw [ofRequirements, List.foldl_append]
  rfl

/-- Only requirements that ask for an output are served by its task. -/
theorem mem_of_mem_served (h : r ∈ served s rs path) : r ∈ rs ∧ s.outputOf? r = some path := by
  induction rs using List.reverseRecOn with
  | nil => exact absurd h List.not_mem_nil
  | append_singleton rs q ih =>
      rw [served_append_singleton, List.mem_append] at h
      rcases h with h | h
      · exact ⟨List.mem_append_left _ (ih h).1, (ih h).2⟩
      · split at h
        · next hserved =>
            obtain rfl := List.mem_singleton.mp h
            exact ⟨List.mem_append_right _ (List.mem_singleton_self _), hserved.1⟩
        · exact absurd h List.not_mem_nil

/-! ### One more requirement -/

/-- What planning one more requirement does to the plans: nothing, or the requirement adds its keys
to the plan of its output, or its output is planned with its color and its keys. -/
theorem add_cases (s : Sources) (p : Planning) (r : Requirement) :
    ((p.add s r).plans = p.plans ∧ ∀ path, s.outputOf? r = some path → path ∉ p.plans) ∨
    (∃ path plan, s.outputOf? r = some path ∧ p.plans[path]? = some plan ∧
      (p.add s r).plans = p.plans.insert path (plan.serve (s.keysFor r))) ∨
    ∃ path plan color, s.outputOf? r = some path ∧ path ∉ p.plans ∧
      s.images[r.colorId]? = some color ∧ plan.task.color = color ∧ plan.task.keys = s.keysFor r ∧
      (p.add s r).plans = p.plans.insert path plan := by
  cases hcolor : s.images[r.colorId]? with
  | none =>
      refine .inl ⟨by rw [add, hcolor], fun path hpath => ?_⟩
      rw [Sources.outputOf?, hcolor] at hpath
      cases hpath
  | some color =>
      have houtput := Sources.outputOf?_of_color hcolor
      have hkeys := Sources.keysFor_of_color hcolor
      cases hplan : p.plans[(s.taskOf r color).outputPath]? with
      | some plan =>
          refine .inr (.inl ⟨_, plan, houtput, hplan, ?_⟩)
          rw [add, hcolor]
          dsimp only
          rw [hplan, hkeys]
      | none =>
          have hnew : (s.taskOf r color).outputPath ∉ p.plans := by
            rw [Std.TreeMap.mem_iff_isSome_getElem?, hplan]
            exact Bool.false_ne_true
          have hadd : p.add s r = p.addOutput s r color := by
            rw [add, hcolor]
            dsimp only
            rw [hplan]
          rw [hadd, addOutput]
          dsimp only
          split
          · next plan hchoice =>
              obtain ⟨hplanColor, hplanKeys⟩ := Plan.task_of_ofChoice hchoice
              exact .inr (.inr ⟨_, plan, color, houtput, hnew, rfl, hplanColor,
                hplanKeys.trans hkeys.symm, rfl⟩)
          · refine .inl ⟨rfl, fun path hpath => ?_⟩
            rw [houtput] at hpath
            cases hpath
            exact hnew

/-! ### What is known of a task -/

/-- **The first requirement that a task serves decides its color, and its keys are those of all that
it serves.**  An output is planned exactly if its task serves one. -/
theorem exists_first (s : Sources) (rs : Requirements) (path : String) :
    match (ofRequirements s rs).plans[path]? with
    | none => served s rs path = []
    | some plan => ∃ first rest color, served s rs path = first :: rest ∧
        s.images[first.colorId]? = some color ∧ plan.task.color = color ∧
        ∀ key, key ∈ plan.task.keys ↔ ∃ r ∈ first :: rest, key ∈ s.keysFor r := by
  -- by induction on the requirements, from the front
  induction rs using List.reverseRecOn with
  | nil => rw [ofRequirements, List.foldl_nil, Std.TreeMap.getElem?_emptyc]; rfl
  | append_singleton rs r ih =>
      rw [ofRequirements_append_singleton, served_append_singleton]
      rcases add_cases s (ofRequirements s rs) r with
        ⟨hplans, hunplanned⟩ | ⟨own, plan, howner, hplan, hplans⟩ |
          ⟨own, plan, color, howner, hnew, hcolor, hplanColor, hplanKeys, hplans⟩
      · have hnot : ¬ (s.outputOf? r = some path ∧
            path ∈ ((ofRequirements s rs).add s r).plans) := by
          rintro ⟨hpath, hmem⟩
          rw [hplans] at hmem
          exact hunplanned path hpath hmem
        rw [if_neg hnot, List.append_nil, hplans]
        exact ih
      · rw [hplans, howner, Std.TreeMap.getElem?_insert]
        by_cases hown : own = path
        · subst hown
          rw [hplan] at ih
          obtain ⟨first, rest, color, hserved, hcolor, hplanColor, hkeys⟩ := ih
          rw [if_pos (Std.compare_eq_iff_eq.mpr rfl), if_pos ⟨rfl, by simp⟩, hserved]
          refine ⟨first, rest ++ [r], color, List.cons_append, hcolor, hplanColor, fun key => ?_⟩
          rw [Plan.mem_keys_serve, hkeys, ← List.cons_append]
          simp only [List.mem_append, List.mem_singleton, or_and_right, exists_or, exists_eq_left]
        · rw [if_neg fun h => hown (Std.compare_eq_iff_eq.mp h),
            if_neg fun h => hown (Option.some.inj h.1), List.append_nil]
          exact ih
      · rw [hplans, howner, Std.TreeMap.getElem?_insert]
        by_cases hown : own = path
        · subst hown
          rw [Std.TreeMap.getElem?_eq_none hnew] at ih
          rw [if_pos (Std.compare_eq_iff_eq.mpr rfl), if_pos ⟨rfl, by simp⟩, ih]
          refine ⟨r, [], color, rfl, hcolor, hplanColor, fun key => ?_⟩
          simp [hplanKeys]
        · rw [if_neg fun h => hown (Std.compare_eq_iff_eq.mp h),
            if_neg fun h => hown (Option.some.inj h.1), List.append_nil]
          exact ih

/-- The keys of a task are those of the requirements that it serves. -/
theorem mem_keys_iff (hplan : plan ∈ (ofRequirements s rs).toList) :
    key ∈ plan.task.keys ↔ ∃ r ∈ served s rs plan.task.outputPath, key ∈ s.keysFor r := by
  have hfirst := exists_first s rs plan.task.outputPath
  rw [(mem_toList (sound_ofRequirements s rs)).mp hplan] at hfirst
  obtain ⟨first, rest, color, hserved, -, -, hkeys⟩ := hfirst
  rw [hserved]
  exact hkeys key

/-- Planning takes no diagnostic back. -/
theorem diagnostics_of_add (h : (p.add s r).diagnostics = []) : p.diagnostics = [] := by
  unfold add at h
  split at h
  · exact h
  · dsimp only at h
    split at h
    · exact h
    · unfold addOutput at h
      dsimp only at h
      split at h
      · exact h
      · exact absurd h (List.append_ne_nil_of_right_ne_nil _ (List.cons_ne_nil _ _))

/-- **If every mask could be read, a task serves all requirements that ask for its output.** -/
theorem mem_served_iff (h : (ofRequirements s rs).diagnostics = []) :
    r ∈ served s rs path ↔ r ∈ rs ∧ s.outputOf? r = some path := by
  refine ⟨mem_of_mem_served, ?_⟩
  rintro ⟨hr, hpath⟩
  induction rs using List.reverseRecOn with
  | nil => exact absurd hr List.not_mem_nil
  | append_singleton rs q ih =>
      have hsound := sound_ofRequirements s (rs ++ [q])
      rw [ofRequirements_append_singleton] at h hsound
      rw [served_append_singleton, List.mem_append]
      rcases List.mem_append.mp hr with hr | hr
      · exact .inl (ih (diagnostics_of_add h) hr)
      · refine .inr ?_
        obtain rfl := List.mem_singleton.mp hr
        obtain ⟨color, hcolor, rfl⟩ := Option.map_eq_some_iff.mp hpath
        rcases hsound.covers r (by simp) color hcolor with hplanned | ⟨d, hd, -⟩
        · rw [if_pos ⟨hpath, hplanned⟩]
          exact List.mem_singleton_self r
        · rw [h] at hd
          exact absurd hd List.not_mem_nil

/-- **A task has the picture of the first requirement that it serves.**  The keys of a task are those
of the requirements that it serves, which all ask for its output.  So a requirement gets its own
picture exactly if it has the picture of the first one. -/
theorem color_of_served (hplan : plan ∈ (ofRequirements s rs).toList) :
    ∃ first ∈ rs, (served s rs plan.task.outputPath).head? = some first ∧
      s.images[first.colorId]? = some plan.task.color ∧
      (∀ key, key ∈ plan.task.keys ↔
        ∃ r ∈ served s rs plan.task.outputPath, key ∈ s.keysFor r) ∧
      ∀ r ∈ served s rs plan.task.outputPath,
        r ∈ rs ∧ s.outputOf? r = some plan.task.outputPath ∧
          (s.images[r.colorId]? = some plan.task.color ↔
            s.images[r.colorId]? = s.images[first.colorId]?) := by
  have hfirst := exists_first s rs plan.task.outputPath
  rw [(mem_toList (sound_ofRequirements s rs)).mp hplan] at hfirst
  obtain ⟨first, rest, color, hserved, hcolor, rfl, -⟩ := hfirst
  have hmem : first ∈ served s rs plan.task.outputPath := hserved ▸ List.mem_cons_self
  refine ⟨first, (mem_of_mem_served hmem).1, ?_, hcolor, fun _ => mem_keys_iff hplan,
    fun r hr => ⟨(mem_of_mem_served hr).1, (mem_of_mem_served hr).2, ?_⟩⟩
  · rw [hserved, List.head?_cons]
  · rw [hcolor]

/-! ### Two objects of one name

Two textures of one name, of one opaque pixel each, that one character asks for. -/

namespace Namesakes

/-- A texture of one pixel that is red or not. -/
def asset (id : PathId) (red : UInt8) : Asset :=
  ⟨id, "hero", .texture, "art", "", .ofPixel ⟨red, 0, 0, 255⟩⟩

def sources : Sources where
  index := {}
  corpus := ⟨"/b", ∅⟩
  disk := {}
  images := .ofList [((1 : PathId), asset 1 255), (2, asset 2 0)]
  matcher := {}
  nameKeys := false

def requirements : Requirements :=
  [{ owner := "A", index := 0, colorId := 1 }, { owner := "A", index := 1, colorId := 2 }]

end Namesakes

open Namesakes in
theorem color_of_served_namesakes :
    ∃ plan ∈ (ofRequirements sources requirements).toList,
      plan.task.keys = ["A/0", "A/1"] ∧ ∃ first ∈ requirements,
        (served sources requirements plan.task.outputPath).head? = some first ∧
        sources.images[first.colorId]? = some plan.task.color := by
  have hplan : ∃ plan ∈ (ofRequirements sources requirements).toList,
      plan.task.keys = ["A/0", "A/1"] := by
    decide
  obtain ⟨plan, hplan, hkeys⟩ := hplan
  obtain ⟨first, hfirst, hhead, hcolor, -⟩ := color_of_served hplan
  exact ⟨plan, hplan, hkeys, first, hfirst, hhead, hcolor⟩

open Namesakes in
/-- A requirement gets the picture of another one, if the two ask for objects of one name. -/
theorem exists_foreign_picture : ∃ plan ∈ (ofRequirements sources requirements).toList,
    ∃ r ∈ requirements, r.key ∈ plan.task.keys ∧
      sources.images[r.colorId]? ≠ some plan.task.color := by
  decide

end Planning

end CharacterArt
