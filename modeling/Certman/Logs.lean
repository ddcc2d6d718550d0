import Certman.PyStr
import Mathlib.Data.List.Nodup

/-!
# `logs-clean`

`cleanup_logs` first computes `cutoff = datetime.now() - timedelta(days=keep_days)`, then returns
`0` when `log_dir` does not exist, and otherwise walks `log_dir.glob("*.log")` and deletes each
file whose modification time is before the cutoff; a file whose `stat` or `unlink` raises
`OSError` is skipped, and the count of deleted files is returned.

Both sides of that comparison are naive `datetime`s of the local wall clock (`Datetime`):
`datetime.now()` and `datetime.fromtimestamp(st_mtime)`. They are compared as the clock reads
them, so across a change of the zone's UTC offset a file's age in seconds differs from the age
the comparison sees by the size of the change. The cutoff raises `OverflowError` when `keep_days`
is beyond `timedelta`'s bound or the difference leaves `datetime`'s range, before `log_dir` is
looked at. `fromtimestamp` raises `OverflowError` or `ValueError` for a time that the platform or
`datetime` cannot hold, which the loop does not catch: it ends `cleanup_logs` after the deletions
made before it.

A directory holds files of distinct names (`LogDir`), listed in the order `glob` yields them.
`cleanupLogs_eq` says what is left, what is counted, and when each exception is raised.
-/

namespace Certman

/-- `datetime.max`, as the microseconds from `datetime.min`. -/
def datetimeMax : Int := 315537897599999999

/-- A naive `datetime`: a reading of the local wall clock, as the microseconds from
`datetime.min`, within the range `datetime` holds. Naive `datetime`s compare as these counts. -/
structure Datetime where
  micros : Int
  range : 0 ≤ micros ∧ micros ≤ datetimeMax
deriving DecidableEq

/-- `timedelta(days=days)`, as microseconds, or the text of its `OverflowError`. -/
def timedeltaDays (days : Int) : Except String Int :=
  if days.natAbs ≤ 999999999 then .ok (days * 86400000000)
  else .error s!"days={days}; must have magnitude <= 999999999"

/-- `dt - delta` for a `timedelta` of `delta` microseconds, or the text of its `OverflowError`. -/
def Datetime.sub (dt : Datetime) (delta : Int) : Except String Datetime :=
  if h : 0 ≤ dt.micros - delta ∧ dt.micros - delta ≤ datetimeMax then .ok ⟨_, h⟩
  else .error "date value out of range"

/-- `cutoff = datetime.now() - timedelta(days=keep_days)`. -/
def cleanupCutoff (now : Datetime) (keepDays : Int) : Except String Datetime :=
  timedeltaDays keepDays >>= now.sub

/-- The cutoff is `now - keep_days` when `keep_days` is within `timedelta`'s bound and the
difference within `datetime`'s range. -/
theorem cleanupCutoff_ok {now : Datetime} {keepDays : Int}
    (h : keepDays.natAbs ≤ 999999999 ∧ 0 ≤ now.micros - keepDays * 86400000000 ∧
      now.micros - keepDays * 86400000000 ≤ datetimeMax) :
    cleanupCutoff now keepDays = .ok ⟨_, h.2⟩ := by
  simp only [cleanupCutoff, timedeltaDays, if_pos h.1]
  exact dif_pos h.2

/-- Otherwise it raises `OverflowError`. -/
theorem cleanupCutoff_error {now : Datetime} {keepDays : Int}
    (h : ¬ (keepDays.natAbs ≤ 999999999 ∧ 0 ≤ now.micros - keepDays * 86400000000 ∧
      now.micros - keepDays * 86400000000 ≤ datetimeMax)) :
    ∃ message, cleanupCutoff now keepDays = .error message := by
  by_cases hd : keepDays.natAbs ≤ 999999999
  · have hr : ¬ (0 ≤ now.micros - keepDays * 86400000000 ∧
        now.micros - keepDays * 86400000000 ≤ datetimeMax) := fun hr => h ⟨hd, hr⟩
    exact ⟨_, by simp only [cleanupCutoff, timedeltaDays, if_pos hd]; exact dif_neg hr⟩
  · exact ⟨_, by simp only [cleanupCutoff, timedeltaDays, if_neg hd]; rfl⟩

example : cleanupCutoff ⟨63929822400000000, by decide⟩ 1000000000 =
    .error "days=1000000000; must have magnitude <= 999999999" := rfl
example : cleanupCutoff ⟨63929822400000000, by decide⟩ 740000 = .error "date value out of range" :=
  rfl

/-- What `datetime.fromtimestamp(path.stat().st_mtime)` gives for a file. -/
inductive Mtime
  /-- The local time of the last modification. -/
  | localTime (time : Datetime)
  /-- `stat` raised `OSError`: the loop skips the file. -/
  | osError
  /-- `fromtimestamp` raised `OverflowError` or `ValueError` with this text, for a time that the
  platform or `datetime` cannot hold; the loop does not catch it. -/
  | outOfRange (message : String)
deriving DecidableEq

/-- The text of the exception that `fromtimestamp` lets out of the loop, if any. -/
def Mtime.exception : Mtime → Option String
  | .outOfRange message => some message
  | _ => none

/-- Whether `mtime < cutoff`, for a cutoff of `cutoff` microseconds. -/
def Mtime.before (cutoff : Int) : Mtime → Bool
  | .localTime time => decide (time.micros < cutoff)
  | _ => false

/-- A file under `log_dir` as `cleanup_logs` finds it: its name, what `fromtimestamp` gives for
its modification time, and whether `unlink` succeeds. -/
structure LogFile where
  name : String
  mtime : Mtime
  unlinkable : Bool
deriving DecidableEq

/-- The files directly under `log_dir`, of distinct names. -/
structure LogDir where
  files : List LogFile
  names_nodup : (files.map (·.name)).Nodup

/-- The exceptions `cleanup_logs` raises, with their texts. -/
inductive CleanupError
  /-- The `OverflowError` of the cutoff. -/
  | overflow (message : String)
  /-- The `OverflowError` or `ValueError` of `fromtimestamp` for a file's modification time. -/
  | timestamp (message : String)
deriving DecidableEq

/-- One turn of the loop of `cleanup_logs`: the files left and `removed` after it, or the
exception that ends the loop before this turn deletes anything. -/
def cleanupStep (cutoff : Datetime) (state : List LogFile × Nat) (path : LogFile) :
    Except CleanupError (List LogFile × Nat) :=
  match path.mtime with
  | .osError => .ok state
  | .outOfRange message => .error (.timestamp message)
  | .localTime mtime =>
    if mtime.micros < cutoff.micros then
      if path.unlinkable then .ok (state.1.erase path, state.2 + 1) else .ok state
    else .ok state

/-- The loop of `cleanup_logs` over the files `glob` yields, from the files left and `removed`:
the files left at its end, with `removed` or the exception that ended it. -/
def cleanupLoop (cutoff : Datetime) (state : List LogFile × Nat) :
    List LogFile → List LogFile × Except CleanupError Nat
  | [] => (state.1, .ok state.2)
  | path :: paths =>
    match cleanupStep cutoff state path with
    | .ok state' => cleanupLoop cutoff state' paths
    | .error err => (state.1, .error err)

/-- `cleanup_logs(log_dir, keep_days)` at the local time `now`: the files left under `log_dir`,
if it exists, and the count it returns or the exception it raises. -/
def cleanupLogs (logDir : Option LogDir) (now : Datetime) (keepDays : Int) :
    Option (List LogFile) × Except CleanupError Nat :=
  match cleanupCutoff now keepDays with
  | .error message => (logDir.map (·.files), .error (.overflow message))
  | .ok cutoff =>
    match logDir with
    | none => (none, .ok 0)
    | some dir =>
      let r := cleanupLoop cutoff (dir.files, 0) (dir.files.filter fun f => endswith f.name ".log")
      (some r.1, r.2)

/-- Whether one turn of the loop deletes a file: `stat` and `fromtimestamp` succeed, its local
time is before the cutoff, and its `unlink` succeeds. -/
def stepDeletes (cutoff : Int) (f : LogFile) : Bool := f.mtime.before cutoff && f.unlinkable

theorem cleanupStep_eq (cutoff : Datetime) (l : List LogFile) (n : Nat) (f : LogFile)
    (hl : l.Nodup) :
    cleanupStep cutoff (l, n) f =
      match f.mtime.exception with
      | some message => .error (.timestamp message)
      | none => .ok (if stepDeletes cutoff.micros f then (l.filter (· != f), n + 1) else (l, n)) := by
  rcases f with ⟨name, time | _ | message, unlinkable⟩
  · by_cases h : time.micros < cutoff.micros <;> cases unlinkable <;>
      simp [cleanupStep, stepDeletes, Mtime.exception, Mtime.before, h, hl.erase_eq_filter]
  all_goals rfl

/-- The loop over any list of files walks it up to the first file whose time `fromtimestamp`
cannot convert: it keeps what none of the walked turns deletes, counts the rest, and ends with
that file's exception if there is one. -/
theorem cleanupLoop_eq (cutoff : Datetime) :
    ∀ (g l : List LogFile) (n : Nat), l.Nodup →
      cleanupLoop cutoff (l, n) g =
        (l.filter fun f => !(decide (f ∈ g.takeWhile (·.mtime.exception.isNone)) &&
            stepDeletes cutoff.micros f),
          match g.findSome? (·.mtime.exception) with
          | none => .ok (n + ((g.takeWhile (·.mtime.exception.isNone)).filter
              (stepDeletes cutoff.micros)).length)
          | some message => .error (.timestamp message))
  | [], l, n, _ => by simp [cleanupLoop]
  | f :: g, l, n, hl => by
    cases hf : f.mtime.exception with
    | some message => simp [cleanupLoop, cleanupStep_eq cutoff l n f hl, hf, List.findSome?_cons]
    | none =>
      simp only [cleanupLoop, cleanupStep_eq cutoff l n f hl, hf]
      rw [List.takeWhile_cons_of_pos (by simp [hf]), List.findSome?_cons_of_isNone _ (by simp [hf])]
      split_ifs with hd
      · rw [cleanupLoop_eq cutoff g _ _ (hl.filter _), List.filter_filter, List.filter_cons_of_pos hd]
        refine Prod.ext (List.filter_congr fun x _ => ?_) ?_
        · by_cases hx : x = f <;> simp [hx, hd]
        · cases g.findSome? (·.mtime.exception)
          · simp only [List.length_cons, Nat.add_right_comm, Nat.add_assoc, Nat.add_comm 1]
          · rfl
      · rw [cleanupLoop_eq cutoff g l n hl, List.filter_cons_of_neg hd]
        refine Prod.ext (List.filter_congr fun x _ => ?_) rfl
        by_cases hx : x = f <;> simp [hx, hd]

/-- On a list of distinct files, the files a walk deletes and the files it leaves make up the
list. -/
theorem length_deleted_add_length_left {l w : List LogFile} (p : LogFile → Bool) (hl : l.Nodup)
    (hw : w.Sublist l) :
    (w.filter p).length + (l.filter fun f => !(decide (f ∈ w) && p f)).length = l.length := by
  have hperm : (l.filter fun f => decide (f ∈ w) && p f).Perm (w.filter p) :=
    (List.perm_ext_iff_of_nodup (hl.filter _) ((hw.nodup hl).filter _)).mpr fun f => by
      simp only [List.mem_filter, Bool.and_eq_true, decide_eq_true_eq]
      exact ⟨fun h => h.2, fun h => ⟨hw.subset h.1, h⟩⟩
  rw [← hperm.length_eq]
  exact (List.length_eq_length_filter_add (l := l) _).symm

/-- `logs-clean` raises the cutoff's `OverflowError`, deleting nothing, exactly when `keep_days`
is beyond `timedelta`'s bound or `now - keep_days` leaves `datetime`'s range, whether `log_dir`
exists or not. Otherwise it returns `0` when `log_dir` does not exist. Else it walks the `*.log`
files in `glob` order up to the first whose time `fromtimestamp` cannot convert, deletes exactly
those whose `stat` succeeds, whose local time is before the cutoff and whose `unlink` succeeds,
keeps every other file in order, and returns how many it deleted or raises that file's
exception. -/
theorem cleanupLogs_eq (logDir : Option LogDir) (now : Datetime) (keepDays : Int) :
    let cutoff := now.micros - keepDays * 86400000000
    let inRange := keepDays.natAbs ≤ 999999999 ∧ 0 ≤ cutoff ∧ cutoff ≤ datetimeMax
    (¬ inRange → (cleanupLogs logDir now keepDays).1 = logDir.map (·.files) ∧
        ∃ message, (cleanupLogs logDir now keepDays).2 = .error (.overflow message)) ∧
      (inRange → logDir = none → cleanupLogs logDir now keepDays = (none, .ok 0)) ∧
      ∀ dir, inRange → logDir = some dir →
        let logs := dir.files.filter fun f => endswith f.name ".log"
        let walked := logs.takeWhile (·.mtime.exception.isNone)
        let deleted := walked.filter (stepDeletes cutoff)
        let left := dir.files.filter fun f => !(decide (f ∈ walked) && stepDeletes cutoff f)
        cleanupLogs logDir now keepDays =
            (some left, match logs.findSome? (·.mtime.exception) with
              | none => .ok deleted.length
              | some message => .error (.timestamp message)) ∧
          deleted.length + left.length = dir.files.length := by
  intro cutoff inRange
  refine ⟨fun h => ?_, fun h hd => by simp [cleanupLogs, cleanupCutoff_ok h, hd], ?_⟩
  · obtain ⟨message, he⟩ := cleanupCutoff_error h
    exact ⟨by simp [cleanupLogs, he], message, by simp [cleanupLogs, he]⟩
  · rintro dir h rfl logs walked deleted left
    have hnodup : dir.files.Nodup := List.Nodup.of_map _ dir.names_nodup
    refine ⟨?_, length_deleted_add_length_left _ hnodup
      ((List.takeWhile_sublist _).trans (List.filter_sublist _))⟩
    simp only [cleanupLogs, cleanupCutoff_ok h, cleanupLoop_eq _ _ _ 0 hnodup, Nat.zero_add]

/-- With a week of logs kept, October's log goes, while yesterday's log and a note stay. -/
theorem week_of_logs_kept :
    let october : LogFile := ⟨"certman-1001.log", .localTime ⟨63926438400000000, by decide⟩, true⟩
    let yesterday : LogFile := ⟨"certman-1108.log", .localTime ⟨63929727000000000, by decide⟩, true⟩
    let notes : LogFile := ⟨"notes.txt", .localTime ⟨63926438400000000, by decide⟩, true⟩
    let dir : LogDir := ⟨[october, yesterday, notes], by decide⟩
    cleanupLogs (some dir) ⟨63929822400000000, by decide⟩ 7 = (some [yesterday, notes], .ok 1) := by
  intro october yesterday notes dir
  exact ((cleanupLogs_eq (some dir) ⟨63929822400000000, by decide⟩ 7).2.2 dir (by decide) rfl).1.trans
    rfl

end Certman
