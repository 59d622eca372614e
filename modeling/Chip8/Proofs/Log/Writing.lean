import Mathlib.Data.List.Basic
import Chip8.Log.Journal

/-!
# What a journal writes

A journal is handed records and asked to flush, in any order.  It writes one line for each record
that its verbosity admits, one after the other, and nothing else (`Log.Journal.one_line_each`).

* `Log.Record.exists_tag_eq` : each tag has five characters.
* `Log.Journal.log_eq` : what a journal makes of one record.
* `Log.Journal.useAll_intact`, `Log.Journal.useAll_broken` : what a sink has taken at the end.
* `Log.Journal.admitted_of_le` : a quieter journal writes some of the lines of a more talkative one.
* `Log.Journal.splitOn_lines` : the lines are found again at the line feeds.
-/

namespace Chip8

namespace Log

namespace Record

/-- The line of a record without the line feed at its end. -/
def body (r : Record) : String :=
  "[" ++ tag r.level ++ "][" ++ r.origin.getD r.target ++ "] " ++ r.message

/-- Whether neither the module nor the message of a record breaks its line. -/
def Unbroken (r : Record) : Prop :=
  '\n' ∉ (r.origin.getD r.target).toList ∧ '\n' ∉ r.message.toList

theorem exists_tag_eq (level : Level) :
    (tag level).length = 5 ∧
      ∃ n, tag level = level.name ++ String.ofList (List.replicate n ' ') := by
  refine ⟨?_, _, rfl⟩
  cases level <;> decide

theorem line_eq (r : Record) : r.line = r.body ++ "\n" := rfl

/-- No tag breaks a line. -/
theorem Unbroken.body {r : Record} (h : r.Unbroken) : '\n' ∉ r.body.toList := by
  have tag : '\n' ∉ (tag r.level).toList := by cases r.level <;> decide
  simp [Record.body, String.toList_append, tag, h.1, h.2]

end Record

namespace Journal

/-- Something that a journal is asked for. -/
inductive Use where
  /-- To write a record. -/
  | record (r : Record)
  /-- To flush. -/
  | flush

/-- The record that is to be written, if there is one. -/
def Use.record? : Use → Option Record
  | record r => some r
  | flush => none

/-- The journal after it was used. -/
def use (j : Journal) : Use → Journal
  | .record r => j.log r
  | .flush => j.flush

/-- The journal after it was used many times. -/
def useAll (j : Journal) (us : List Use) : Journal := us.foldl use j

/-- The records that are handed over whose level is at most that of a verbosity. -/
def admitted (v : Verbosity) (us : List Use) : List Record :=
  (us.filterMap Use.record?).filter fun r => r.level.rank ≤ v.rank

/-- How often a journal is asked to flush. -/
def flushes (us : List Use) : Nat := us.countP fun u => u.record?.isNone

variable {v w : Verbosity} {us : List Use}

/-! ### One record -/

/-- **What a journal makes of one record**: if its level is at most that of the verbosity, and the
sink takes anything, then the sink takes its line, and nothing happens otherwise. -/
theorem log_eq (j : Journal) (r : Record) :
    j.log r =
      if r.level.rank ≤ j.verbosity.rank then { j with sink := j.sink.append r.line } else j := by
  simp only [log, enter, Verbosity.admits, decide_eq_true_eq]

theorem log_of_not_admitted {j : Journal} {r : Record}
    (h : ¬ r.level.rank ≤ j.verbosity.rank) : j.log r = j := by
  rw [log_eq, if_neg h]

theorem text_log {j : Journal} {r : Record} (intact : j.sink.broken = false)
    (admitted : r.level.rank ≤ j.verbosity.rank) :
    (j.log r).sink.text = j.sink.text ++ r.line := by
  rw [log_eq, if_pos admitted, Sink.append, intact]
  rfl

/-- Records change neither the verbosity nor whether the sink is broken. -/
theorem logAll_keeps (j : Journal) (rs : List Record) :
    (j.logAll rs).verbosity = j.verbosity ∧ (j.logAll rs).sink.broken = j.sink.broken := by
  refine List.foldlRecOn (motive := fun k : Journal =>
    k.verbosity = j.verbosity ∧ k.sink.broken = j.sink.broken) rs log ⟨rfl, rfl⟩ ?_
  intro k kept r _
  rw [log_eq, Sink.append]
  split
  · split <;> exact kept
  · exact kept

/-! ### What a sink takes -/

theorem useAll_cons (j : Journal) (u : Use) (us : List Use) :
    j.useAll (u :: us) = (j.use u).useAll us := rfl

theorem admitted_flush : admitted v (.flush :: us) = admitted v us := rfl

theorem admitted_record (r : Record) :
    admitted v (.record r :: us) =
      if r.level.rank ≤ v.rank then r :: admitted v us else admitted v us := by
  simp only [admitted, Use.record?, List.filterMap_cons, List.filter_cons, decide_eq_true_eq]

theorem flushes_flush : flushes (.flush :: us) = flushes us + 1 := List.countP_cons_of_pos rfl

theorem flushes_record (r : Record) : flushes (.record r :: us) = flushes us :=
  List.countP_cons_of_neg nofun

/-- **A sink that takes everything has taken the lines of the records that were admitted.** -/
theorem useAll_intact (text : String) (n : Nat) :
    (⟨v, ⟨false, text, n⟩⟩ : Journal).useAll us =
      ⟨v, ⟨false, text ++ String.join ((admitted v us).map Record.line), n + flushes us⟩⟩ := by
  induction us generalizing text n with
  | nil =>
    have nothing : String.join ((admitted v []).map Record.line) = "" := rfl
    rw [nothing, String.append_empty]
    rfl
  | cons u us ih =>
    cases u with
    | flush =>
      have next : (⟨v, ⟨false, text, n⟩⟩ : Journal).use .flush = ⟨v, ⟨false, text, n + 1⟩⟩ := rfl
      rw [useAll_cons, next, ih, admitted_flush, flushes_flush, Nat.add_assoc, Nat.add_comm 1]
    | record r =>
      rw [useAll_cons, use, admitted_record, flushes_record]
      by_cases low : r.level.rank ≤ v.rank
      · have next : (⟨v, ⟨false, text, n⟩⟩ : Journal).log r = ⟨v, ⟨false, text ++ r.line, n⟩⟩ :=
          (log_eq _ r).trans (if_pos low)
        rw [next, ih, if_pos low, List.map_cons, String.join_cons, String.append_assoc]
      · rw [log_of_not_admitted low, ih, if_neg low]

/-- **A broken sink takes nothing**, and the journal is as it was. -/
theorem useAll_broken (text : String) (n : Nat) :
    (⟨v, ⟨true, text, n⟩⟩ : Journal).useAll us = ⟨v, ⟨true, text, n + flushes us⟩⟩ := by
  induction us generalizing n with
  | nil => rfl
  | cons u us ih =>
    cases u with
    | flush =>
      have next : (⟨v, ⟨true, text, n⟩⟩ : Journal).use .flush = ⟨v, ⟨true, text, n + 1⟩⟩ := rfl
      rw [useAll_cons, next, ih, flushes_flush, Nat.add_assoc, Nat.add_comm 1]
    | record r =>
      have next : (⟨v, ⟨true, text, n⟩⟩ : Journal).use (.record r) = ⟨v, ⟨true, text, n⟩⟩ :=
        ite_self _
      rw [useAll_cons, next, ih, flushes_record]

/-! ### Which lines there are -/

/-- **A quieter journal writes some of the lines of a more talkative one.** -/
theorem admitted_of_le (quieter : v.rank ≤ w.rank) (us : List Use) :
    admitted v us = (admitted w us).filter fun r => r.level.rank ≤ v.rank := by
  rw [admitted, admitted, List.filter_filter]
  refine List.filter_congr fun r _ => ?_
  rw [← Bool.decide_and]
  exact decide_eq_decide.2 (iff_self_and.2 fun low => Nat.le_trans low quieter)

/-- **The lines are found again at the line feeds**, and nothing follows the last one. -/
theorem splitOn_lines {rs : List Record} (unbroken : ∀ r ∈ rs, r.Unbroken) :
    (String.join (rs.map Record.line)).toList.splitOn '\n' =
      rs.map (fun r => r.body.toList) ++ [[]] := by
  induction rs with
  | nil => rfl
  | cons r rs ih =>
    rw [List.forall_mem_cons] at unbroken
    have first : ∀ c ∈ r.body.toList, (c == '\n') = false := fun c mem =>
      beq_false_of_ne fun same => unbroken.1.body (same ▸ mem)
    have split : (String.join ((r :: rs).map Record.line)).toList =
        r.body.toList ++ '\n' :: (String.join (rs.map Record.line)).toList := by
      rw [List.map_cons, String.join_cons, Record.line_eq, String.toList_append,
        String.toList_append, List.append_assoc]
      rfl
    rw [split, List.splitOn, List.splitOnP_append_cons_of_forall_mem first _ (beq_self_eq_true _)]
    exact congrArg (r.body.toList :: ·) (ih unbroken.2)

theorem mem_admitted {r : Record} (h : r ∈ admitted v us) : Use.record r ∈ us := by
  obtain ⟨u, mem, same⟩ := List.mem_filterMap.1 (List.mem_of_mem_filter h)
  cases u with
  | flush => cases same
  | record r' => cases same; exact mem

/-! ### The law -/

/-- **One line for each record that is admitted.**  Let a journal with a verbosity be handed records
and asked to flush, in any order.  It admits a record whose level is at most that of the verbosity.

* Over a sink that takes everything, the lines of the records that the verbosity admits are appended
  to what the sink had taken, in their order: in brackets the level, filled up to five characters,
  in brackets the module, or what stands for it if that is not known, a space, the message and a
  line feed.  The sink was asked to flush once more for each time that the journal was.
* A record that is not admitted leaves the journal, and with it the sink, as it was.
* What a quieter journal writes are the lines of those records, among the ones that a more talkative
  one admits, whose level is at most that of its verbosity.
* If no module and no message has a line feed in it, the text falls apart at its line feeds into one
  line for each record that was admitted, in their order, and nothing follows the last one.
* A broken sink takes nothing, and the journal goes on to admit the same records. -/
theorem one_line_each (v : Verbosity) (us : List Use) :
    let line := fun r : Record => "[" ++ Record.tag r.level ++ "][" ++ r.origin.getD r.target ++
      "] " ++ r.message ++ "\n"
    (∀ level, (Record.tag level).length = 5 ∧
      ∃ n, Record.tag level = level.name ++ String.ofList (List.replicate n ' ')) ∧
    (∀ level, v.admits level = true ↔ level.rank ≤ v.rank) ∧
    (∀ text n, (⟨v, ⟨false, text, n⟩⟩ : Journal).useAll us =
      ⟨v, ⟨false, text ++ String.join ((admitted v us).map line), n + flushes us⟩⟩) ∧
    (∀ sink r, ¬ r.level.rank ≤ v.rank → (⟨v, sink⟩ : Journal).log r = ⟨v, sink⟩) ∧
    (∀ w : Verbosity, w.rank ≤ v.rank → ((⟨w, .fresh false⟩ : Journal).useAll us).sink.text =
      String.join (((admitted v us).filter fun r => r.level.rank ≤ w.rank).map line)) ∧
    ((∀ r, .record r ∈ us → r.Unbroken) →
      ((⟨v, .fresh false⟩ : Journal).useAll us).sink.text.toList.splitOn '\n' =
        (admitted v us).map (fun r => r.body.toList) ++ [[]]) ∧
    ∀ text n, (⟨v, ⟨true, text, n⟩⟩ : Journal).useAll us = ⟨v, ⟨true, text, n + flushes us⟩⟩ := by
  intro line
  have written (v : Verbosity) : ((⟨v, .fresh false⟩ : Journal).useAll us).sink.text =
      String.join ((admitted v us).map Record.line) := by
    rw [Sink.fresh, useAll_intact, String.empty_append]
  refine ⟨Record.exists_tag_eq, fun level => decide_eq_true_iff, useAll_intact,
    fun sink r => log_of_not_admitted (j := ⟨v, sink⟩), fun w quieter => ?_, fun unbroken => ?_,
    useAll_broken⟩
  · rw [written, admitted_of_le quieter]
    rfl
  · rw [written]
    exact splitOn_lines fun r mem => unbroken r (mem_admitted mem)

/-- Of a warning, an instruction and an error the instruction is not logged, and the warning is not
either if only errors are; a broken sink counts the flush. -/
theorem one_line_each_of_three :
    let warning : Record := ⟨.warn, none, "host", "ready"⟩
    let fetched : Record := ⟨.trace, some "plum8::plum", "", "0x200: 00E0"⟩
    let error : Record := ⟨.error, some "plum8::plum", "host", "machine halted"⟩
    let us := [Use.record warning, .record fetched, .flush, .record error]
    let v := Verbosity.upTo .info
    (¬ fetched.level.rank ≤ v.rank ∧ (Verbosity.upTo .error).rank ≤ v.rank ∧
        ∀ r, Use.record r ∈ us → r.Unbroken) ∧
      (v.admits warning.level = true ∧ v.admits fetched.level = false) ∧
      (⟨v, ⟨false, "...", 1⟩⟩ : Journal).useAll us =
        ⟨v, ⟨false, "...[WARN ][host] ready\n[ERROR][plum8::plum] machine halted\n", 2⟩⟩ ∧
      (⟨v, .fresh false⟩ : Journal).log fetched = ⟨v, .fresh false⟩ ∧
      ((⟨.upTo .error, .fresh false⟩ : Journal).useAll us).sink.text =
        "[ERROR][plum8::plum] machine halted\n" ∧
      ((⟨v, .fresh false⟩ : Journal).useAll us).sink.text.toList.splitOn '\n' =
        ["[WARN ][host] ready".toList, "[ERROR][plum8::plum] machine halted".toList, []] ∧
      (⟨v, ⟨true, "...", 1⟩⟩ : Journal).useAll us = ⟨v, ⟨true, "...", 2⟩⟩ := by
  intro warning fetched error us v
  obtain ⟨-, admits, intact, left, quieter, lines, broken⟩ := one_line_each v us
  have rank : (Verbosity.upTo .error).rank ≤ v.rank := by decide
  have grave : ¬ fetched.level.rank ≤ v.rank := by decide
  have unbroken : ∀ r, Use.record r ∈ us → r.Unbroken := by
    intro r mem
    simp only [us, List.mem_cons, List.not_mem_nil, or_false, Use.record.injEq, reduceCtorEq,
      false_or] at mem
    obtain rfl | rfl | rfl := mem <;> exact ⟨by decide, by decide⟩
  refine ⟨⟨grave, rank, unbroken⟩,
    ⟨(admits _).2 (by decide), Bool.eq_false_iff.2 fun h => grave ((admits _).1 h)⟩,
    (intact "..." 1).trans ?_, left _ _ grave, (quieter _ rank).trans ?_,
    (lines unbroken).trans ?_, broken "..." 1⟩
  · decide
  · decide
  · decide

end Journal

end Log

end Chip8
