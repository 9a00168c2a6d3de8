import Assay.Diagnostic

/-!
Contract: messages, and what a log makes of them.
-/

namespace Assay

/-! ## Messages -/

namespace Entry

/-- An error in what was declared, and not one of the checker itself. -/
def IsError (entry : Entry) : Prop :=
  entry.severity = .error

theorem isError_error (loc : Location) (fault : Fault) : (Entry.error loc fault).IsError :=
  rfl

/-- A note about progress, or an error in what was declared. -/
def Plain (entry : Entry) : Prop :=
  entry.severity = .trace ∨ entry.IsError

theorem Plain.not_isInternal {entry : Entry} (plain : entry.Plain) : entry.isInternal = false := by
  rcases plain with isTrace | isError
  · simp [isInternal, isTrace]
  · rw [IsError] at isError
    simp [isInternal, isError]

end Entry

/-! ## Logs -/

namespace Log

variable {log : Log} {entries : List Entry} {entry : Entry}

def diagnose (log : Log) (entry : Entry) : Diagnostic :=
  ⟨entry, log.debug && entry.severity.isError⟩

/-- Every message is counted, whatever is kept. -/
theorem counts_recordAll (log : Log) (entries : List Entry) (severity : Severity) :
    (log.recordAll entries).counts severity =
      log.counts severity + entries.countP fun entry => severity = entry.severity := by
  induction entries generalizing log with
  | nil => rfl
  | cons entry entries ih =>
    have counted : (log.record entry).counts severity =
        if severity = entry.severity then log.counts severity + 1 else log.counts severity := rfl
    show ((log.record entry).recordAll entries).counts severity = _
    rw [ih, counted, List.countP_cons]
    by_cases same : severity = entry.severity
    · simp only [same, if_true, decide_true]
      omega
    · simp [same]

/-- The messages above the level are kept, in their order. -/
theorem kept_recordAll (log : Log) (entries : List Entry) :
    (log.recordAll entries).kept =
      log.kept ++ (entries.filter fun entry => !log.ignores entry.severity).map log.diagnose := by
  induction entries generalizing log with
  | nil => exact (List.append_nil _).symm
  | cons entry entries ih =>
    show ((log.record entry).recordAll entries).kept = _
    rw [ih]
    by_cases ignored : log.ignores entry.severity = true
    · have kept : (log.record entry).kept = log.kept := if_pos ignored
      rw [kept, List.filter_cons_of_neg (by simp [ignored])]
      rfl
    · have kept : (log.record entry).kept = log.kept ++ [log.diagnose entry] := if_neg ignored
      rw [kept, List.filter_cons_of_pos (by simp [ignored]), List.map_cons, List.append_assoc]
      rfl

/-- Messages of which none has a severity leave its count as it was, and others do not. -/
theorem counts_recordAll_eq_iff {severity : Severity} :
    (log.recordAll entries).counts severity = log.counts severity ↔
      ∀ entry ∈ entries, entry.severity ≠ severity := by
  rw [counts_recordAll, Nat.add_eq_left, List.countP_eq_zero]
  constructor
  · intro absent entry member same
    exact absent entry member (decide_eq_true same.symm)
  · intro absent entry member same
    exact absent entry member (of_decide_eq_true same).symm

/-- The count of internal errors goes up exactly if one is among the messages. -/
theorem internal_lt_iff :
    log.counts .internal < (log.recordAll entries).counts .internal ↔
      entries.any Entry.isInternal = true := by
  rw [counts_recordAll, Nat.lt_add_right_iff_pos, List.countP_pos_iff, List.any_eq_true]
  constructor <;> rintro ⟨entry, member, same⟩ <;>
    exact ⟨entry, member, decide_eq_true (of_decide_eq_true same).symm⟩

/-! Logs without a complaint about the checker -/

/-- Nothing but notes and errors in what was declared has been counted or kept. -/
structure Plain (log : Log) : Prop where
  counts : ∀ severity, severity ≠ .trace → severity ≠ .error → log.counts severity = 0
  kept : ∀ diagnostic ∈ log.kept, diagnostic.entry.Plain

theorem Plain.recordAll (plain : log.Plain) (added : ∀ entry ∈ entries, entry.Plain) :
    (log.recordAll entries).Plain where
  counts severity notTrace notError := by
    rw [counts_recordAll_eq_iff.mpr, plain.counts severity notTrace notError]
    intro entry member same
    rcases added entry member with isTrace | isError
    · exact notTrace (same.symm.trans isTrace)
    · exact notError (same.symm.trans isError)
  kept := by
    rw [kept_recordAll]
    refine List.forall_mem_append.mpr ⟨plain.kept, List.forall_mem_map.mpr fun entry member => ?_⟩
    exact added entry (List.mem_filter.mp member).1

end Log

end Assay
