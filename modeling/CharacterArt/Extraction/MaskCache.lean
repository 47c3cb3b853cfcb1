import CharacterArt.Bundle.Corpus
import CharacterArt.Resolution

/-!
# Decoding masks once

## Main Definitions

* `MaskCache` — the masks that were decoded so far
* `MaskCache.decode` — the object of a record
* `MaskCache.decodeNamed` — the object of a name, if the index knows one
-/

namespace CharacterArt

/-- The masks that were decoded so far, by bundle and number. -/
abbrev MaskCache := List ((String × PathId) × Asset)

namespace MaskCache

/-- The object of a record: the one decoded before for its bundle and number, or else decoded now.
A failure is not remembered. -/
def decode (c : Corpus) (d : Files) (cache : MaskCache) (r : Record) :
    Except Error Asset × MaskCache :=
  match cache.lookup (r.bundle, r.pathId) with
  | some a => (.ok a, cache)
  | none =>
    match c.decodeOne d r.bundle r.pathId r.kind with
    | .ok a => (.ok a, ((r.bundle, r.pathId), a) :: cache)
    | .error e => (.error e, cache)

/-- The object of a name, if the index knows one. -/
def decodeNamed (s : Index.Store) (c : Corpus) (d : Files) (cache : MaskCache) (name : String) :
    Except Error (Option Asset) × MaskCache :=
  match Resolution.findNamed s name with
  | .error e => (.error e, cache)
  | .ok none => (.ok none, cache)
  | .ok (some r) =>
    let (result, cache) := decode c d cache r
    (result.map some, cache)

end MaskCache

end CharacterArt
