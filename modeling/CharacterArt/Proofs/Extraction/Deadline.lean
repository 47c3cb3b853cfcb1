import CharacterArt.Proofs.Extraction.Accounts
import CharacterArt.Proofs.Reconciliation.Donors
import Mathlib

/-!
# How long an extraction waits

A pool of workers is waited for until a second that the clock must be able to show.  The seconds of all
workers together are kept within 64 bits, but the clock counts in 63.  So settings can ask for a time
that never comes, and an extraction with such settings breaks off after its tasks have begun.

## Main Definitions

* `Config.lastSecond` — until when a pool would be waited for on a clock without an end

## Main Results

* `Config.deadline?_eq_some_iff` — until when a pool is waited for
* `Extraction.run_ends_iff` — which extractions end with a report
-/

namespace CharacterArt

namespace Config

variable {c : Config} {available now last : Nat}

/-- The second until which a pool would be waited for on a clock without an end. -/
def lastSecond (c : Config) (available now : Nat) : Nat :=
  now + c.secondsPerWorker * c.workerCount available

/-- **A pool is waited for until the clock shows the seconds of all workers more than now**, if it can
show that.  That the seconds are kept within 64 bits changes nothing. -/
theorem deadline?_eq_some_iff : c.deadline? available now = some last ↔
    last = c.lastSecond available now ∧ last < 2 ^ 63 := by
  have hmax : Int64.maxValue.toInt = 2 ^ 63 - 1 := by decide
  have hsize : UInt64.size - 1 = 2 ^ 64 - 1 := rfl
  unfold deadline? drainSeconds lastSecond
  dsimp only
  rw [hmax, hsize, Option.ite_none_right_eq_some, Option.some.injEq]
  omega

/-- There is a deadline if the clock can show it. -/
theorem isSome_deadline?_iff :
    (c.deadline? available now).isSome ↔ c.lastSecond available now < 2 ^ 63 := by
  rw [Option.isSome_iff_exists]
  simp only [deadline?_eq_some_iff, exists_eq_left]

theorem deadline?_eq_none_iff :
    c.deadline? available now = none ↔ 2 ^ 63 ≤ c.lastSecond available now := by
  rw [← Option.not_isSome_iff_eq_none, isSome_deadline?_iff, not_lt]

end Config

namespace Extraction

variable {σ : Type} {x : Extraction} {tools : Toolchain σ} {rs : Requirements} {w merged : World σ}
  {p : Prepared} {opened : Files} {main : DrainReport} {os : List Deferred}

theorem canOverride_iff :
    x.canOverride os = true ↔ (os ≠ [] → x.config.lastSecond x.cores x.later < 2 ^ 63) := by
  rw [canOverride, Bool.or_eq_true, List.isEmpty_iff, Config.isSome_deadline?_iff,
    or_iff_not_imp_left]

/-- Without a deadline an extraction breaks off when its tasks have begun. -/
theorem run_of_deadline?_eq_none (hprepare : x.prepare rs w.disk = (.ok p, opened))
    (hmain : x.mainPass tools p.planning.toList { w with disk := opened } = (main, merged))
    (h : x.config.deadline? x.cores x.now = none) :
    x.run tools rs w = (.error noDeadline, merged) := by
  unfold run
  rw [hprepare]
  dsimp only
  unfold carryOut
  rw [hmain]
  dsimp only
  rw [h]
  rfl

/-- Without a deadline for the second pass an extraction breaks off when the tasks of that pass have
begun. -/
theorem run_of_canOverride_eq_false (hprepare : x.prepare rs w.disk = (.ok p, opened))
    (hmain : x.mainPass tools p.planning.toList { w with disk := opened } = (main, merged))
    (hdeadline : (x.config.deadline? x.cores x.now).isSome)
    (h : x.canOverride (deferredOf p.planning.toList (writtenBy main)) = false) :
    x.run tools rs w = (.error noDeadline,
      (x.overridePass tools (deferredOf p.planning.toList (writtenBy main)) merged).2) := by
  obtain ⟨last, hlast⟩ := Option.isSome_iff_exists.mp hdeadline
  unfold run
  rw [hprepare]
  dsimp only
  unfold carryOut
  rw [hmain]
  dsimp only
  rw [hlast]
  dsimp only
  unfold afterMainPass
  dsimp only
  rw [h]
  rfl

/-- A tool that answers brings an extraction with deadlines to its end. -/
theorem exists_course_of_answers (htools : tools.Answers)
    (hprepare : x.prepare rs w.disk = (.ok p, opened))
    (hmain : x.mainPass tools p.planning.toList { w with disk := opened } = (main, merged))
    (hdeadline : (x.config.deadline? x.cores x.now).isSome)
    (hoverride : x.canOverride (deferredOf p.planning.toList (writtenBy main)) = true) :
    Nonempty (x.Course tools rs w) := by
  rcases hsecond : x.overridePass tools (deferredOf p.planning.toList (writtenBy main)) merged with
    ⟨second, overridden⟩
  obtain ⟨attempts, s, hattempts⟩ := Reconciliation.ends_tryAll htools
    (Reconciliation.outputsIn overridden.disk x.outputDir)
    (Reconciliation.targets (x.troubles p main merged.disk second)) ⟨overridden, ∅⟩
  exact ⟨⟨p, opened, hprepare, main, merged, hmain, second, overridden, hsecond, _, _,
    Reconciliation.reconcile_of_tryAll hattempts, hdeadline, hoverride⟩⟩

/-- **An extraction that could be prepared ends with a report exactly if the clock can show the second
until which it may wait**, for its first pass and for the second one, if there is one.  If not, it
breaks off, with the outputs of that pass merged. -/
theorem run_ends_iff (htools : tools.Answers) (hprepare : x.prepare rs w.disk = (.ok p, opened))
    (hmain : x.mainPass tools p.planning.toList { w with disk := opened } = (main, merged)) :
    (∀ available now last, x.config.deadline? available now = some last ↔
        last = x.config.lastSecond available now ∧ last < 2 ^ 63) ∧
      ((∃ result, (x.run tools rs w).1 = .ok result) ↔
        x.config.lastSecond x.cores x.now < 2 ^ 63 ∧
          (deferredOf p.planning.toList (writtenBy main) ≠ [] →
            x.config.lastSecond x.cores x.later < 2 ^ 63)) ∧
      (2 ^ 63 ≤ x.config.lastSecond x.cores x.now →
        x.run tools rs w = (.error noDeadline, merged)) ∧
      (x.config.lastSecond x.cores x.now < 2 ^ 63 →
        deferredOf p.planning.toList (writtenBy main) ≠ [] →
        2 ^ 63 ≤ x.config.lastSecond x.cores x.later →
          x.run tools rs w = (.error noDeadline,
            (x.overridePass tools (deferredOf p.planning.toList (writtenBy main)) merged).2)) := by
  refine ⟨fun _ _ _ => Config.deadline?_eq_some_iff, ⟨?_, ?_⟩, fun h => ?_, fun h hsome hlater => ?_⟩
  · rintro ⟨result, hresult⟩
    obtain ⟨c, -, -⟩ := exists_course (Prod.ext hresult rfl : x.run tools rs w = (.ok result, _))
    have hprepared := c.prepare_eq
    rw [hprepare] at hprepared
    cases hprepared
    have hsame := c.main_eq
    rw [hmain] at hsame
    cases hsame
    exact ⟨Config.isSome_deadline?_iff.mp c.hasDeadline, canOverride_iff.mp c.canOverride⟩
  · rintro ⟨h, hlater⟩
    obtain ⟨c⟩ := exists_course_of_answers htools hprepare hmain (Config.isSome_deadline?_iff.mpr h)
      (canOverride_iff.mpr hlater)
    exact ⟨_, congrArg Prod.fst c.run_eq⟩
  · exact run_of_deadline?_eq_none hprepare hmain (Config.deadline?_eq_none_iff.mpr h)
  · refine run_of_canOverride_eq_false hprepare hmain (Config.isSome_deadline?_iff.mpr h) ?_
    rw [← Bool.not_eq_true, canOverride_iff]
    exact fun hshown => absurd (hshown hsome) (not_lt.mpr hlater)

open Sample in
theorem run_ends_iff_foe : ∃ p opened,
    (extraction "/index").prepare (requirements 3) start.disk = (.ok p, opened) ∧
      ∃ result, ((extraction "/index").run Toolchain.inProcess (requirements 3) start).1 =
        .ok result := by
  obtain ⟨p, hprepare, -⟩ := exists_eq_ok_of_any evaluated_foe.1
  have hprepared : (extraction "/index").prepare (requirements 3) start.disk = (.ok p, _) :=
    Prod.ext hprepare rfl
  exact ⟨p, _, hprepared, (run_ends_iff (Toolchain.answers_inProcess Unit) hprepared rfl).2.1.mpr
    ⟨by decide, fun _ => by decide⟩⟩

namespace Sample

/-- Two workers that may each take as long as a clock can show. -/
def endless : Config where
  workers := some 2
  secondsPerWorker := 2 ^ 63 - 1

def endlessExtraction : Extraction where
  bundleDir := "/b"
  outputDir := "/images"
  config := endless

theorem deadline?_endless (available now : Nat) : endless.deadline? available now = none := by
  have hworkers : endless.workerCount available = 2 := rfl
  have hseconds : endless.secondsPerWorker = 2 ^ 63 - 1 := rfl
  rw [Config.deadline?_eq_none_iff, Config.lastSecond, hworkers, hseconds]
  omega

theorem evaluated_endless :
    Config.parse "per_worker_timeout_secs = 9223372036854775807\nworkers = 2" = .ok endless ∧
      (endlessExtraction.prepare (requirements 3) start.disk).1.toOption.any (fun p =>
        (endlessExtraction.mainPass Toolchain.inProcess p.planning.toList
          { start with disk := (endlessExtraction.prepare (requirements 3) start.disk).2 }).1.written ==
            1) = true := by
  decide +kernel

end Sample

open Sample in
/-- Settings that are accepted can ask for a time that no clock shows.  An extraction with them breaks
off with its only output written. -/
theorem exists_endless : ∃ text c, Config.parse text = .ok c ∧
    (∀ available now, c.deadline? available now = none) ∧
    ∃ (x : Extraction) (p : Prepared) (opened : Files), x.config = c ∧
      x.prepare (requirements 3) start.disk = (.ok p, opened) ∧
      (x.mainPass Toolchain.inProcess p.planning.toList { start with disk := opened }).1.written = 1 ∧
      (x.run Toolchain.inProcess (requirements 3) start).1 = .error noDeadline := by
  obtain ⟨hparse, hwritten⟩ := evaluated_endless
  obtain ⟨p, hprepare, hmain⟩ := exists_eq_ok_of_any hwritten
  have hprepared : endlessExtraction.prepare (requirements 3) start.disk = (.ok p, _) :=
    Prod.ext hprepare rfl
  refine ⟨_, endless, hparse, deadline?_endless, endlessExtraction, p, _, rfl, hprepared,
    beq_iff_eq.mp hmain, ?_⟩
  rw [run_of_deadline?_eq_none hprepared Prod.mk.eta.symm (deadline?_endless _ _)]

end Extraction

end CharacterArt
