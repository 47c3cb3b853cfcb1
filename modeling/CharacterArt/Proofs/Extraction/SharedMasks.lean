import CharacterArt.Extraction.Plan
import CharacterArt.Proofs.Failures
import CharacterArt.Proofs.Picture
import CharacterArt.Proofs.Resolution.Completeness

/-!
# Masks that share their number

A mask that was decoded is remembered under its bundle and its number, but a bundle may hold a texture
and a sprite of one number.  So what is asked for second is answered with what was asked for first.
Answers are exact as long as the kind is the same, and a failure is never remembered.

## Main Definitions

* `MaskRequest` — what is asked of a cache, and `MaskRequest.record?`, the record that it is about
* `MaskCache.answer`, `MaskCache.after` — the answer to a request, and the cache after some of them
* `MaskCache.firstDecoded` — the first asset of a bundle and a number that could be decoded
* `Sources.requestOf?` — what is asked of the bundles for an image
* `Planning.Asks` — what is planned with the answers to some requests

## Main Results

* `MaskCache.lookup_after` — a cache remembers the first asset of every bundle and number
* `MaskCache.answer_after` — every answer, in terms of the requests before
* `MaskCache.answer_exact_iff` — an answer is the asset that is asked for exactly if the kind is
* `MaskCache.exists_inexact` — a sprite that is answered with a texture
* `Planning.exists_requests` — plans are made with a cache after some requests
-/

namespace CharacterArt

/-- What is asked of a cache: the object of a record, or the object of a name. -/
inductive MaskRequest where
  | record (r : Record)
  | named (name : String)
  deriving DecidableEq, Repr

namespace MaskRequest

variable {s : Index.Store}

/-- The record of the object that is asked for, if the index knows one. -/
def record? (s : Index.Store) : MaskRequest → Except Error (Option Record)
  | record r => .ok (some r)
  | named name => Resolution.findNamed s name

/-- The records of the objects that some requests ask for. -/
def records (s : Index.Store) (requests : List MaskRequest) : List Record :=
  requests.filterMap fun q => (q.record? s).toOption.join

theorem records_append_singleton (requests : List MaskRequest) (q : MaskRequest) :
    records s (requests ++ [q]) = records s requests ++ (q.record? s).toOption.join.toList := by
  rw [records, List.filterMap_append, ← records]
  cases h : (q.record? s).toOption.join <;> simp [h]

end MaskRequest

/-- What is decoded is of the kind that is asked for. -/
theorem Corpus.kind_of_decodeOne {c : Corpus} {d : Files} {name : String} {id : PathId}
    {kind : AssetKind} {a : Asset} (h : c.decodeOne d name id kind = .ok a) : a.kind = kind := by
  obtain ⟨opened, -, h⟩ := bind_eq_ok_iff.mp h
  split at h
  · next e hfind =>
      have hkind : e.kind? = some kind := by
        have hboth := List.find?_some hfind
        simp only [Bool.and_eq_true, beq_iff_eq] at hboth
        exact hboth.2
      exact Option.some.inj ((Bundle.entry_of_decode h).2.symm.trans hkind)
  · cases h

namespace MaskCache

variable {s : Index.Store} {c : Corpus} {d : Files} {cache : MaskCache} {rs : List Record}
  {r r' : Record} {a : Asset} {bundle : String} {id : PathId} {e : Error}

/-! ### What is remembered -/

/-- The answer to a request, and the cache after it. -/
def answer (s : Index.Store) (c : Corpus) (d : Files) (cache : MaskCache) :
    MaskRequest → Except Error (Option Asset) × MaskCache
  | .record r => ((decode c d cache r).1.map some, (decode c d cache r).2)
  | .named name => decodeNamed s c d cache name

/-- The cache after some requests, if it was empty before. -/
def after (s : Index.Store) (c : Corpus) (d : Files) (requests : List MaskRequest) : MaskCache :=
  requests.foldl (fun cache q => (answer s c d cache q).2) []

theorem after_append_singleton (requests : List MaskRequest) (q : MaskRequest) :
    after s c d (requests ++ [q]) = (answer s c d (after s c d requests) q).2 := by
  rw [after, List.foldl_append]
  rfl

/-- The asset of the first of some records that is about a bundle and a number and can be decoded. -/
def firstDecoded (c : Corpus) (d : Files) (bundle : String) (id : PathId) (rs : List Record) :
    Option Asset :=
  rs.findSome? fun r =>
    if r.bundle = bundle ∧ r.pathId = id then (c.decodeOne d r.bundle r.pathId r.kind).toOption
    else none

/-- A request is answered through the record that it is about. -/
theorem answer_eq (cache : MaskCache) (q : MaskRequest) : answer s c d cache q =
    match q.record? s with
    | .error e => (.error e, cache)
    | .ok none => (.ok none, cache)
    | .ok (some r) => ((decode c d cache r).1.map some, (decode c d cache r).2) := by
  cases q with
  | record r => rfl
  | named name =>
      unfold answer decodeNamed MaskRequest.record?
      rcases Resolution.findNamed s name with e | _ | r <;> rfl

/-- A cache remembers, for every bundle and number, the first asset that some records gave. -/
def Remembers (cache : MaskCache) (c : Corpus) (d : Files) (rs : List Record) : Prop :=
  ∀ bundle id, cache.lookup (bundle, id) = firstDecoded c d bundle id rs

theorem firstDecoded_append_singleton (bundle : String) (id : PathId) (rs : List Record)
    (r : Record) : firstDecoded c d bundle id (rs ++ [r]) =
      (firstDecoded c d bundle id rs).or
        (if r.bundle = bundle ∧ r.pathId = id then
          (c.decodeOne d r.bundle r.pathId r.kind).toOption else none) := by
  rw [firstDecoded, List.findSome?_append, ← firstDecoded, List.findSome?_cons]
  congr 1
  split <;> simp_all

/-- **One more record.** -/
theorem Remembers.decode (h : cache.Remembers c d rs) (r : Record) :
    (decode c d cache r).2.Remembers c d (rs ++ [r]) := by
  intro bundle id
  rw [firstDecoded_append_singleton, ← h bundle id, MaskCache.decode]
  by_cases hsame : r.bundle = bundle ∧ r.pathId = id
  · obtain ⟨rfl, rfl⟩ := hsame
    rw [if_pos ⟨rfl, rfl⟩]
    split
    · next a hfound => rw [hfound, Option.some_or]
    · next hnone =>
        rw [hnone, Option.none_or]
        split
        · next a hdecode => simp [hdecode, Except.toOption]
        · next e hdecode => simp [hnone, hdecode, Except.toOption]
  · rw [if_neg hsame, Option.or_none]
    split
    · rfl
    · split
      · have hkey : ((bundle, id) == (r.bundle, r.pathId)) = false := by
          rw [beq_eq_false_iff_ne]
          rintro heq
          cases heq
          exact hsame ⟨rfl, rfl⟩
        rw [List.lookup_cons, hkey]
      · rfl

/-- **A cache remembers the first asset of every bundle and number.** -/
theorem lookup_after (s : Index.Store) (c : Corpus) (d : Files) (requests : List MaskRequest) :
    (after s c d requests).Remembers c d (MaskRequest.records s requests) := by
  induction requests using List.reverseRecOn with
  | nil => exact fun _ _ => rfl
  | append_singleton requests q ih =>
      rw [after_append_singleton, MaskRequest.records_append_singleton, answer_eq]
      split
      · next hrecord => simpa [hrecord, Except.toOption] using ih
      · next hrecord => simpa [hrecord, Except.toOption] using ih
      · next r hrecord => simpa [hrecord, Except.toOption] using ih.decode r

/-! ### Answers -/

/-- **Every answer, in terms of the requests before**: what is asked for is decoded if none of them
gave an asset of its bundle and number. -/
theorem answer_after (s : Index.Store) (c : Corpus) (d : Files) (requests : List MaskRequest)
    (q : MaskRequest) : (answer s c d (after s c d requests) q).1 =
      (q.record? s).bind fun found =>
        match found with
        | none => .ok none
        | some r =>
          match firstDecoded c d r.bundle r.pathId (MaskRequest.records s requests) with
          | some a => .ok (some a)
          | none => (c.decodeOne d r.bundle r.pathId r.kind).map some := by
  rw [answer_eq]
  rcases q.record? s with e | _ | r
  · rfl
  · rfl
  · show (MaskCache.decode c d _ r).1.map some = _
    rw [MaskCache.decode, lookup_after]
    show _ = match firstDecoded c d r.bundle r.pathId (MaskRequest.records s requests) with
      | some a => Except.ok (some a)
      | none => (c.decodeOne d r.bundle r.pathId r.kind).map some
    cases firstDecoded c d r.bundle r.pathId (MaskRequest.records s requests) with
    | some a => rfl
    | none => cases c.decodeOne d r.bundle r.pathId r.kind <;> rfl

/-- What is answered with an asset, if the request itself counts as the last one. -/
theorem answer_eq_ok_some_iff (requests : List MaskRequest) (q : MaskRequest) :
    (answer s c d (after s c d requests) q).1 = .ok (some a) ↔ ∃ r, q.record? s = .ok (some r) ∧
      firstDecoded c d r.bundle r.pathId (MaskRequest.records s requests ++ [r]) = some a := by
  rw [answer_after]
  rcases q.record? s with e | _ | r
  · simp [Except.bind]
  · simp [Except.bind]
  · simp only [Except.bind, Except.ok.injEq, Option.some.injEq, exists_eq_left',
      firstDecoded_append_singleton, and_self, if_true]
    cases firstDecoded c d r.bundle r.pathId (MaskRequest.records s requests) with
    | some b => simp
    | none => cases c.decodeOne d r.bundle r.pathId r.kind <;> simp [Except.map, Except.toOption]

/-- The first asset of a bundle and a number is given by a record before which none gives one. -/
theorem firstDecoded_eq_some_iff : firstDecoded c d bundle id rs = some a ↔
    ∃ front r back, rs = front ++ r :: back ∧ (r.bundle = bundle ∧ r.pathId = id) ∧
      c.decodeOne d r.bundle r.pathId r.kind = .ok a ∧
      ∀ r' ∈ front, r'.bundle = bundle → r'.pathId = id →
        (c.decodeOne d r'.bundle r'.pathId r'.kind).isOk = false := by
  have hgives : ∀ r : Record, (if r.bundle = bundle ∧ r.pathId = id then
      (c.decodeOne d r.bundle r.pathId r.kind).toOption else none) = some a ↔
        (r.bundle = bundle ∧ r.pathId = id) ∧ c.decodeOne d r.bundle r.pathId r.kind = .ok a := by
    intro r
    rw [Option.ite_none_right_eq_some]
    cases c.decodeOne d r.bundle r.pathId r.kind <;> simp [Except.toOption]
  have hfails : ∀ r : Record, (if r.bundle = bundle ∧ r.pathId = id then
      (c.decodeOne d r.bundle r.pathId r.kind).toOption else none) = none ↔
        (r.bundle = bundle → r.pathId = id →
          (c.decodeOne d r.bundle r.pathId r.kind).isOk = false) := by
    intro r
    rw [ite_eq_right_iff, and_imp]
    cases c.decodeOne d r.bundle r.pathId r.kind <;> simp [Except.toOption, Except.isOk, Except.toBool]
  simp only [firstDecoded, List.findSome?_eq_some_iff, hgives, hfails, and_assoc]

/-- What is answered from before is what is asked for, if all records of its bundle and number before
are of its kind. -/
theorem decodeOne_of_firstDecoded (h : firstDecoded c d r.bundle r.pathId rs = some a)
    (hkinds : ∀ x ∈ rs, x.bundle = r.bundle → x.pathId = r.pathId → x.kind = r.kind) :
    c.decodeOne d r.bundle r.pathId r.kind = .ok a := by
  obtain ⟨front, r', back, rfl, hsame, hdecode, -⟩ := firstDecoded_eq_some_iff.mp h
  have hmem : r' ∈ front ++ r' :: back := List.mem_append_right _ List.mem_cons_self
  rwa [hsame.1, hsame.2, hkinds r' hmem hsame.1 hsame.2] at hdecode

/-- **An answer is the asset that is asked for exactly if the kind is.**  It is the asset of the first
record of that bundle and that number, in the requests up to this one, that could be decoded.  So the
cache makes no difference as long as no request before was about the same number of the same bundle
and another kind. -/
theorem answer_exact_iff (s : Index.Store) (c : Corpus) (d : Files) (requests : List MaskRequest)
    (q : MaskRequest) :
    (∀ a, (answer s c d (after s c d requests) q).1 = .ok (some a) →
      ∃ r, q.record? s = .ok (some r) ∧
        (c.decodeOne d r.bundle r.pathId r.kind = .ok a ↔ a.kind = r.kind) ∧
        ∃ front r' back, MaskRequest.records s requests ++ [r] = front ++ r' :: back ∧
          (r'.bundle = r.bundle ∧ r'.pathId = r.pathId) ∧
          c.decodeOne d r'.bundle r'.pathId r'.kind = .ok a ∧
          ∀ x ∈ front, x.bundle = r.bundle → x.pathId = r.pathId →
            (c.decodeOne d x.bundle x.pathId x.kind).isOk = false) ∧
    ∀ r, q.record? s = .ok (some r) →
      (∀ x ∈ MaskRequest.records s requests, x.bundle = r.bundle → x.pathId = r.pathId →
        x.kind = r.kind) →
      (answer s c d (after s c d requests) q).1 =
        (c.decodeOne d r.bundle r.pathId r.kind).map some := by
  refine ⟨fun a h => ?_, fun r hrecord hkinds => ?_⟩
  · obtain ⟨r, hrecord, hfirst⟩ := (answer_eq_ok_some_iff requests q).mp h
    obtain ⟨front, r', back, hsplit, hsame, hdecode, hfront⟩ := firstDecoded_eq_some_iff.mp hfirst
    refine ⟨r, hrecord, ⟨Corpus.kind_of_decodeOne, fun hkind => ?_⟩, front, r', back, hsplit, hsame,
      hdecode, hfront⟩
    rwa [← hsame.1, ← hsame.2, ← hkind, Corpus.kind_of_decodeOne hdecode]
  · rw [answer_after, hrecord]
    dsimp only [Except.bind]
    cases hfirst : firstDecoded c d r.bundle r.pathId (MaskRequest.records s requests) with
    | none => rfl
    | some a =>
        rw [decodeOne_of_firstDecoded hfirst hkinds]
        rfl

end MaskCache

/-! ### Requests of a planning -/

open MaskCache (answer after)

namespace Sources

variable {s : Sources} {q : Alpha.Query} {cache : MaskCache} {a : Asset}

/-- What is asked of the bundles for an image, if anything is. -/
def requestOf? (s : Sources) (q : Alpha.Query) : Option MaskRequest :=
  match (s.matcher.find? q).map Alpha.MaskMatch.source with
  | some (.indexed r) => some (.record r)
  | some (.named name) => some (.named name)
  | _ => none

/-- What the answer to a request says about a mask. -/
def choiceOf : MaskRequest → Except Error (Option Asset) → MaskChoice
  | _, .ok (some a) => .mask a
  | _, .ok none => .missing
  | .record _, .error e => .failed e.message
  | .named name, .error e => .failed ("override asset " ++ name ++ ": " ++ e.message)

/-- A mask that is chosen is the one that was answered. -/
theorem eq_ok_some_of_choiceOf {request : MaskRequest} {result : Except Error (Option Asset)}
    (h : choiceOf request result = .mask a) : result = .ok (some a) := by
  rcases result with e | _ | b
  · cases request <;> cases h
  · cases h
  · cases h
    rfl

/-- **A mask is looked for with one request, or with none.** -/
theorem maskFor_eq_of_requestOf? {request : MaskRequest} (h : s.requestOf? q = some request)
    (cache : MaskCache) : s.maskFor cache q =
      (choiceOf request (answer s.index s.corpus s.disk cache request).1,
        (answer s.index s.corpus s.disk cache request).2) := by
  rw [maskFor]
  unfold requestOf? at h
  split at h
  · next r hsource =>
      cases h
      rw [hsource, answer]
      dsimp only
      rcases MaskCache.decode s.corpus s.disk cache r with ⟨e | a, cache'⟩ <;> rfl
  · next name hsource =>
      cases h
      rw [hsource, answer]
      dsimp only
      rcases MaskCache.decodeNamed s.index s.corpus s.disk cache name with ⟨e | _ | a, cache'⟩ <;> rfl
  · cases h

theorem maskFor_of_requestOf?_eq_none (h : s.requestOf? q = none) (cache : MaskCache) :
    s.maskFor cache q = ((s.maskFor [] q).1, cache) := by
  rw [maskFor, maskFor]
  unfold requestOf? at h
  split at h
  · cases h
  · cases h
  · next hrecord hnamed =>
      rcases hsource : (s.matcher.find? q).map Alpha.MaskMatch.source with
        _ | a | r | name | path
      · rfl
      · rfl
      · exact absurd hsource (hrecord r)
      · exact absurd hsource (hnamed name)
      · rfl

/-- What is chosen without a request was decoded with the images. -/
theorem exists_decoded_of_requestOf?_eq_none (h : s.requestOf? q = none)
    (hmask : (s.maskFor cache q).1 = .mask a) :
    ∃ m, s.matcher.find? q = some m ∧ m.source = .decoded a := by
  rw [maskFor] at hmask
  rw [requestOf?] at h
  rcases hfind : s.matcher.find? q with _ | ⟨rule, source⟩
  · rw [hfind] at hmask
    cases hmask
  · rw [hfind] at hmask h
    cases source with
    | decoded mask =>
        cases hmask
        exact ⟨_, rfl, rfl⟩
    | indexed r => cases h
    | named name => cases h
    | output path => cases hmask

/-- A mask that is chosen was decoded with the images, or it is the answer to a request. -/
theorem maskFor_cases (s : Sources) (cache : MaskCache) (q : Alpha.Query) :
    ((s.maskFor cache q).2 = cache ∧ ∀ a, (s.maskFor cache q).1 = .mask a →
      ∃ m, s.matcher.find? q = some m ∧ m.source = .decoded a) ∨
    ∃ request, (s.maskFor cache q).2 = (answer s.index s.corpus s.disk cache request).2 ∧
      ∀ a, (s.maskFor cache q).1 = .mask a →
        (answer s.index s.corpus s.disk cache request).1 = .ok (some a) := by
  cases hrequest : s.requestOf? q with
  | none =>
      refine .inl ⟨?_, fun a hmask => exists_decoded_of_requestOf?_eq_none hrequest hmask⟩
      rw [maskFor_of_requestOf?_eq_none hrequest]
  | some request =>
      refine .inr ⟨request, ?_⟩
      rw [maskFor_eq_of_requestOf? hrequest]
      exact ⟨rfl, fun a hmask => eq_ok_some_of_choiceOf hmask⟩

end Sources

/-- A mask was decoded with the images, or it is the answer to one of some requests. -/
def Sources.Gives (s : Sources) (requests : List MaskRequest) (a : Asset) : Prop :=
  (∃ q m, s.matcher.find? q = some m ∧ m.source = .decoded a) ∨
    ∃ front request back, requests = front ++ request :: back ∧
      (answer s.index s.corpus s.disk (after s.index s.corpus s.disk front) request).1 = .ok (some a)

theorem Sources.Gives.append {s : Sources} {requests : List MaskRequest} {a : Asset}
    (h : s.Gives requests a) (rest : List MaskRequest) : s.Gives (requests ++ rest) a := by
  refine h.imp_right ?_
  rintro ⟨front, request, back, rfl, hanswer⟩
  exact ⟨front, request, back ++ rest, by simp, hanswer⟩

namespace Planning

variable {s : Sources} {p : Planning} {requests : List MaskRequest}

/-- What is planned with the answers to some requests: the cache is theirs, and all masks are. -/
structure Asks (p : Planning) (s : Sources) (requests : List MaskRequest) : Prop where
  masks_eq : p.masks = after s.index s.corpus s.disk requests
  gives : ∀ (path : String) (plan : Plan) (a : Asset), p.plans[path]? = some plan →
    plan.task.mask = some (.asset a) → s.Gives requests a

theorem Asks.insert (h : p.Asks s requests) {path : String} {plan : Plan}
    (hplan : ∀ a, plan.task.mask = some (.asset a) → s.Gives requests a) :
    Asks { p with plans := p.plans.insert path plan } s requests := by
  refine ⟨h.masks_eq, fun path' plan' a hfound hmask => ?_⟩
  rw [Std.TreeMap.getElem?_insert] at hfound
  split at hfound
  · cases hfound
    exact hplan a hmask
  · exact h.gives path' plan' a hfound hmask

theorem mask_of_ofChoice {t : MergeTask} {choice : MaskChoice} {plan : Plan} {a : Asset}
    (hbare : t.mask = none) (hplan : Plan.ofChoice t choice = .ok plan)
    (hmask : plan.task.mask = some (.asset a)) : choice = .mask a := by
  cases choice <;> cases hplan <;> simp_all

/-- Planning a new output asks for at most one mask. -/
theorem Asks.addOutput (h : p.Asks s requests) (r : Requirement) (color : Asset) :
    ∃ rest, (p.addOutput s r color).Asks s (requests ++ rest) := by
  have hstep : ∃ rest, (s.maskFor p.masks (s.queryOf r color)).2 =
      after s.index s.corpus s.disk (requests ++ rest) ∧
        ∀ a, (s.maskFor p.masks (s.queryOf r color)).1 = .mask a → s.Gives (requests ++ rest) a := by
    rcases s.maskFor_cases p.masks (s.queryOf r color) with
      ⟨hcache, hdecoded⟩ | ⟨request, hcache, hanswer⟩
    · refine ⟨[], ?_, fun a ha => .inl ⟨_, hdecoded a ha⟩⟩
      rw [hcache, List.append_nil, h.masks_eq]
    · rw [h.masks_eq] at hcache hanswer ⊢
      refine ⟨[request], ?_, fun a ha => .inr ⟨requests, request, [], rfl, hanswer a ha⟩⟩
      rw [hcache, MaskCache.after_append_singleton]
  obtain ⟨rest, hcache, hgives⟩ := hstep
  refine ⟨rest, ?_⟩
  have hlater : Asks { p with masks := (s.maskFor p.masks (s.queryOf r color)).2 } s
      (requests ++ rest) :=
    ⟨hcache, fun path plan a hfound hmask => (h.gives path plan a hfound hmask).append rest⟩
  unfold Planning.addOutput
  dsimp only
  split
  · next plan hplan =>
      exact hlater.insert fun a hmask => hgives a (mask_of_ofChoice rfl hplan hmask)
  · exact ⟨hlater.masks_eq, hlater.gives⟩

/-- **Planning one more requirement.** -/
theorem Asks.add (h : p.Asks s requests) (r : Requirement) :
    ∃ rest, (p.add s r).Asks s (requests ++ rest) := by
  unfold Planning.add
  split
  · exact ⟨[], by rwa [List.append_nil]⟩
  · next color hcolor =>
      dsimp only
      split
      · next plan hplan =>
          -- the output is planned already, with its mask
          refine ⟨[], ?_⟩
          rw [List.append_nil]
          exact h.insert fun a hmask => h.gives _ plan a hplan hmask
      · exact h.addOutput r color

/-- **Plans are made with the answers to a sequence of requests.** -/
theorem exists_requests (s : Sources) (rs : Requirements) :
    ∃ requests, (ofRequirements s rs).Asks s requests := by
  induction rs using List.reverseRecOn with
  | nil => exact ⟨[], rfl, fun path plan a hfound => by simp [ofRequirements] at hfound⟩
  | append_singleton rs r ih =>
      obtain ⟨requests, h⟩ := ih
      obtain ⟨rest, hadd⟩ := h.add r
      rw [ofRequirements, List.foldl_append]
      exact ⟨_, hadd⟩

end Planning

namespace MaskCache

/-! ### A texture and a sprite of one number

The bundle `x` holds a mask and a sprite of one number.  The mask is that of a first image, and the
override table names the sprite for a second one. -/

namespace Twins

/-- The picture of the mask. -/
def veil : Picture :=
  .ofPixel ⟨128, 128, 128, 64⟩

/-- The picture of the sprite. -/
def shade : Picture :=
  .ofPixel ⟨128, 128, 128, 192⟩

def files : Files :=
  Corpus.diskWith "b" [
    ("art.ab", [.ofPicture .texture 1 "hero" "" default, .ofPicture .texture 2 "foe" "" default]),
    ("x.ab", [.ofPicture .texture 5 "hero_alpha" "" veil, .ofPicture .sprite 5 "spr" "" shade])]

def corpus : Corpus :=
  Corpus.scanned files "/b"

def store : Index.Store :=
  .fresh corpus files

/-- The record of the mask. -/
def mask : Record :=
  ⟨5, "hero_alpha", .texture, 1, 1, "x", ""⟩

/-- The record of the sprite. -/
def sprite : Record :=
  ⟨5, "spr", .sprite, 1, 1, "x", ""⟩

/-- Two images were found, and the override table names the sprite for the second one. -/
def sources : Sources where
  index := store
  corpus := corpus
  disk := files
  images := (∅ : Std.TreeMap PathId Asset).insertMany
    [(1, ⟨1, "hero", .texture, "art", "", default⟩), (2, ⟨2, "foe", .texture, "art", "", default⟩)]
  matcher :=
    { catalog := .ofRecords [mask]
      overrides := (∅ : Alpha.OverrideTable).insert "a/foe.png" (.asset "spr") }
  nameKeys := false

def requirements : Requirements :=
  [{ owner := "A", index := 0, colorId := 1 }, { owner := "A", index := 1, colorId := 2 }]

/-- The picture of the mask that is planned for an output. -/
def plannedMask? (p : Planning) (output : String) : Option Picture :=
  match p.plans[output]?.bind fun plan => plan.task.mask with
  | some (.asset a) => some a.picture
  | _ => none

/-- All that is asked of the bundles, in one evaluation. -/
theorem evaluated :
    (Corpus.scan files "/b").isOk = true ∧
    (∀ b ∈ corpus.bundles, (Index.tablesOn files b).isOk = true) ∧
    Resolution.findNamed store "spr" = .ok (some sprite) ∧
    corpus.decodeOne files "x" 5 .texture = .ok ⟨5, "hero_alpha", .texture, "x", "", veil⟩ ∧
    corpus.decodeOne files "x" 5 .sprite = .ok ⟨5, "spr", .sprite, "x", "", shade⟩ ∧
    plannedMask? (.ofRequirements sources requirements) "a/foe.png" = some veil := by
  decide +kernel

/-- The index is in step with the bundles. -/
theorem inSync_store : store.InSync corpus files :=
  (Index.Store.inSync_fresh (Corpus.scan_eq_scanned evaluated.1) evaluated.2.1).1

/-- After the mask, the sprite is asked for by its name and the mask is answered. -/
theorem answer_sprite : (answer store corpus files (after store corpus files [.record mask])
    (.named "spr")).1 = .ok (some ⟨5, "hero_alpha", .texture, "x", "", veil⟩) := by
  obtain ⟨-, -, hnamed, hmask, -⟩ := evaluated
  have hrecord : (MaskRequest.named "spr").record? store = .ok (some sprite) := hnamed
  have hfirst : firstDecoded corpus files "x" 5 [mask] =
      some ⟨5, "hero_alpha", .texture, "x", "", veil⟩ := by
    refine firstDecoded_eq_some_iff.mpr ⟨[], mask, [], rfl, ⟨rfl, rfl⟩, hmask, ?_⟩
    exact fun _ hnone => absurd hnone List.not_mem_nil
  rw [answer_after, hrecord]
  show (match firstDecoded corpus files "x" 5 [mask] with
    | some a => Except.ok (some a)
    | none => (corpus.decodeOne files "x" 5 .sprite).map some) = _
  rw [hfirst]

end Twins

open Twins in
theorem answer_exact_iff_twins :
    (answer store corpus files (after store corpus files [.record mask]) (.named "spr")).1 =
        .ok (some ⟨5, "hero_alpha", .texture, "x", "", veil⟩) ∧
      corpus.decodeOne files "x" 5 .sprite ≠ .ok ⟨5, "hero_alpha", .texture, "x", "", veil⟩ ∧
      (answer store corpus files (after store corpus files [.record mask]) (.record mask)).1 =
        .ok (some ⟨5, "hero_alpha", .texture, "x", "", veil⟩) := by
  obtain ⟨-, -, hnamed, hmask, -⟩ := evaluated
  refine ⟨answer_sprite, fun hsprite => ?_, ?_⟩
  · obtain ⟨r, hrecord, hexact, -⟩ := (answer_exact_iff store corpus files [.record mask]
      (.named "spr")).1 _ answer_sprite
    obtain rfl : sprite = r := Option.some.inj (Except.ok.inj (hnamed.symm.trans hrecord))
    exact absurd (hexact.mp hsprite) (by decide)
  · have hkinds : ∀ x ∈ MaskRequest.records store [.record mask], x.bundle = mask.bundle →
        x.pathId = mask.pathId → x.kind = mask.kind := by
      intro x hx _ _
      rw [List.mem_singleton.mp hx]
    rw [(answer_exact_iff store corpus files [.record mask] (.record mask)).2 mask rfl hkinds]
    exact congrArg (Except.map some) hmask

open Twins in
/-- **A sprite that is answered with a texture**, and the image whose mask it should be is planned with
that of another one. -/
theorem exists_inexact :
    store.InSync corpus files ∧
    (∃ r a b, (MaskRequest.named "spr").record? store = .ok (some r) ∧
      (answer store corpus files (after store corpus files [.record mask]) (.named "spr")).1 =
        .ok (some a) ∧
      corpus.decodeOne files r.bundle r.pathId r.kind = .ok b ∧ a ≠ b) ∧
    plannedMask? (.ofRequirements sources requirements) "a/foe.png" = some veil := by
  obtain ⟨-, -, hnamed, -, hsprite, hplanned⟩ := evaluated
  refine ⟨inSync_store, ⟨sprite, _, _, hnamed, answer_sprite, hsprite, ?_⟩, hplanned⟩
  decide

end MaskCache

end CharacterArt
