import Holdout.Proofs.Command.Gather
import Holdout.Proofs.Run.Observers
import Holdout.Proofs.Run.Safety

/-!
# Entries on their own

Once the entries are gathered, nothing stops the command: every entry prints a block of its own,
which no other entry has a part in, and only an entry that does not decode makes the command fail.
Of the clock of its run a block shows only when the budget of time runs out, and nothing at all if
it does not.

* `Runs`                    the run of an entry on a clock;
* `Prints`, `Prints.unique`   the one block that an entry prints;
* `InTime`, `entryBlocks_congr`   clocks that do not use up the budget of time print the same;
* `Ends`, `exists_entryBlocks_iff`   there is a report exactly if every run comes to an end;
* `ReportOf`, `entries_on_their_own`   what the whole command prints, and its exit code.
-/

namespace Holdout.Command

open Listing (Entry FileResult)

/-! ## one entry -/

/-- the machine of an entry and the end of its run on a clock -/
structure Runs (o : Options) (clock : Clock) (e : Entry) (m : Machine) (n : Nat)
    (outcome : Outcome) : Prop where
  decode_eq : e.decode o.defaultSymbols o.blank = .ok m
  endsAt : m.EndsAt o.limits clock n outcome

/-- the lines that an entry prints, if its run looks at a clock -/
inductive Prints (o : Options) (clock : Clock) (e : Entry) : List String → Prop
  | undecodable {cause : DecodeError} (h : e.decode o.defaultSymbols o.blank = .error cause) :
    Prints o clock e [errorLine o e cause]
  | result {m : Machine} {n : Nat} {outcome : Outcome} (htrace : o.trace = none)
    (h : Runs o clock e m n outcome) : Prints o clock e [resultLine o e outcome]
  | traced {m : Machine} {n most : Nat} {outcome : Outcome} (htrace : o.trace = some most)
    (h : Runs o clock e m n outcome) :
    Prints o clock e [resultLine o e outcome,
      (Trace.toJson (((m.observed n).map Snapshot.ofConfig).take most)).write]

/-- the run of an entry comes to an end, if the entry decodes at all -/
def Ends (o : Options) (clock : Clock) (e : Entry) : Prop :=
  ∀ m, e.decode o.defaultSymbols o.blank = .ok m → ∃ n outcome, Runs o clock e m n outcome

section
variable {o : Options} {e : Entry} {clock : Clock} {m m' : Machine} {n n' patience : Nat}
  {outcome outcome' : Outcome}

theorem Runs.unique (h : Runs o clock e m n outcome) (h' : Runs o clock e m' n' outcome') :
    m = m' ∧ n = n' ∧ outcome = outcome' := by
  have hm := h.decode_eq
  rw [h'.decode_eq] at hm
  cases hm
  exact ⟨rfl, h.endsAt.unique h'.endsAt⟩

/-- no run of an entry fails -/
theorem Runs.isFailed_eq_false (h : Runs o clock e m n outcome) : outcome.isFailed = false := by
  have hclosed := (Decoded.entry h.decode_eq).closed
  cases outcome with
  | halted _ _ => rfl
  | exceeded _ => rfl
  | failed fault => exact absurd h.endsAt (not_endsAt_failed hclosed)

theorem Runs.not_undecodable (h : Runs o clock e m n outcome) {cause : DecodeError} :
    e.decode o.defaultSymbols o.blank ≠ .error cause := by
  rw [h.decode_eq]
  exact nofun

/-- an entry prints one block only -/
theorem Prints.unique {lines lines' : List String} (h : Prints o clock e lines)
    (h' : Prints o clock e lines') : lines = lines' := by
  cases h with
  | undecodable h =>
    cases h' with
    | undecodable h' =>
      rw [h] at h'
      cases h'
      rfl
    | result _ h' => exact absurd h h'.not_undecodable
    | traced _ h' => exact absurd h h'.not_undecodable
  | result htrace h =>
    cases h' with
    | undecodable h' => exact absurd h' h.not_undecodable
    | result _ h' =>
      obtain ⟨_, _, rfl⟩ := h.unique h'
      rfl
    | traced htrace' _ =>
      rw [htrace] at htrace'
      cases htrace'
  | traced htrace h =>
    cases h' with
    | undecodable h' => exact absurd h' h.not_undecodable
    | result htrace' _ =>
      rw [htrace] at htrace'
      cases htrace'
    | traced htrace' h' =>
      rw [htrace] at htrace'
      cases htrace'
      obtain ⟨rfl, rfl, rfl⟩ := h.unique h'
      rfl

theorem Runs.prints (h : Runs o clock e m n outcome) :
    Prints o clock e (resultLine o e outcome ::
      traceLines o (((m.observed n).map Snapshot.ofConfig).take (o.trace.getD 0))) := by
  unfold traceLines
  cases htrace : o.trace with
  | none => exact .result htrace h
  | some most => exact .traced htrace h

theorem entryBlock_of_error {cause : DecodeError}
    (h : e.decode o.defaultSymbols o.blank = .error cause) (patience : Nat) (clock : Clock) :
    entryBlock o patience e clock = some ⟨[errorLine o e cause], [], true⟩ := by
  unfold entryBlock
  rw [h]

theorem entryBlock_of_ok (h : e.decode o.defaultSymbols o.blank = .ok m) (patience : Nat)
    (clock : Clock) :
    entryBlock o patience e clock = (m.trace o.limits (o.trace.getD 0) patience clock).map
      fun (outcome, kept) =>
        ⟨resultLine o e outcome :: traceLines o kept, analysisLines o m, outcome.isFailed⟩ := by
  unfold entryBlock
  simp only [h]
  cases m.trace o.limits (o.trace.getD 0) patience clock <;> rfl

/-- the block of an entry is what it prints, and it fails exactly if the entry does not decode -/
theorem entryBlock_eq_some {b : Block} (h : entryBlock o patience e clock = some b) :
    Prints o clock e b.printed ∧
      (b.failed = true ↔ ∃ cause, e.decode o.defaultSymbols o.blank = .error cause) := by
  cases hdecode : e.decode o.defaultSymbols o.blank with
  | error cause =>
    rw [entryBlock_of_error hdecode] at h
    cases h
    exact ⟨.undecodable hdecode, fun _ => ⟨cause, rfl⟩, fun _ => rfl⟩
  | ok m =>
    rw [entryBlock_of_ok hdecode, Option.map_eq_some_iff] at h
    obtain ⟨⟨outcome, kept⟩, htrace, rfl⟩ := h
    obtain ⟨n, _, hn, rfl⟩ := Machine.trace_eq_some_iff.mp htrace
    have hruns : Runs o clock e m n outcome := ⟨hdecode, hn⟩
    refine ⟨hruns.prints, ?_⟩
    simp only [hruns.isFailed_eq_false, Bool.false_eq_true, reduceCtorEq, exists_false]

theorem ends_of_entryBlock {b : Block} (h : entryBlock o patience e clock = some b) :
    Ends o clock e := by
  intro m hdecode
  rw [entryBlock_of_ok hdecode, Option.map_eq_some_iff] at h
  obtain ⟨⟨outcome, kept⟩, htrace, _⟩ := h
  obtain ⟨n, _, hn, _⟩ := Machine.trace_eq_some_iff.mp htrace
  exact ⟨n, outcome, hdecode, hn⟩

/-- with enough patience an entry has its block -/
theorem Ends.exists_entryBlock (h : Ends o clock e) :
    ∃ patience, ∀ more, patience ≤ more → ∃ b, entryBlock o more e clock = some b := by
  cases hdecode : e.decode o.defaultSymbols o.blank with
  | error cause => exact ⟨0, fun more _ => ⟨_, entryBlock_of_error hdecode more clock⟩⟩
  | ok m =>
    obtain ⟨n, outcome, hruns⟩ := h m hdecode
    refine ⟨n + 1, fun more hle => ?_⟩
    rw [entryBlock_of_ok hdecode, hruns.endsAt.trace_eq, if_pos (by omega)]
    exact ⟨_, rfl⟩

/-- a run ends if its clock uses up the budget of time at some look -/
theorem ends_of_timeIsUp {k : Nat} (h : o.limits.timeIsUp (clock k) = true) : Ends o clock e := by
  intro m hdecode
  obtain ⟨n, outcome, hends⟩ := Machine.exists_endsAt_of_timeIsUp (m := m) h
  exact ⟨n, outcome, hdecode, hends⟩

end

/-! ## clocks -/

/-- the budget of time does not run out on the clock -/
def InTime (o : Options) (clock : Clock) : Prop := ∀ k, o.limits.timeIsUp (clock k) = false

section
variable {o : Options} {e : Entry} {clock clock' : Clock}

theorem timeIsUp_of_lt {l : Limits} {span : Span} {passed : Nat} (htime : l.time = some span)
    (h : passed < span.total) : l.timeIsUp passed = false := by
  rw [Limits.timeIsUp, htime, Option.any_some, decide_eq_false_iff_not, not_le]
  exact h

theorem total_ofMillis (millis : Nat) : (Span.ofMillis millis).total = millis * 1000000 := by
  simp only [Span.total, Span.ofMillis, Span.ofParts]
  omega

/-- a clock that stands still uses up no budget that the options can set -/
theorem inTime_stopped (o : Options) : InTime o Clock.stopped := by
  intro k
  show o.limits.timeIsUp 0 = false
  cases hmillis : o.timeMs with
  | none =>
    have htime : o.limits.time = some (Span.ofParts 1 0) := by
      simp only [Options.limits, hmillis, Limits.default]
    exact timeIsUp_of_lt htime (by decide)
  | some millis =>
    cases millis with
    | zero =>
      have htime : o.limits.time = none := by
        simp only [Options.limits, hmillis]
      rw [Limits.timeIsUp, htime, Option.any_none]
    | succ millis =>
      have htime : o.limits.time = some (Span.ofMillis (millis + 1)) := by
        simp only [Options.limits, hmillis]
      refine timeIsUp_of_lt htime ?_
      rw [total_ofMillis]
      omega

theorem InTime.timeIsUp_eq (h : InTime o clock) (h' : InTime o clock') (k : Nat) :
    o.limits.timeIsUp (clock k) = o.limits.timeIsUp (clock' k) :=
  (h k).trans (h' k).symm

/-- only when the budget of time runs out is seen of a clock -/
theorem entryBlock_congr (h : ∀ k, o.limits.timeIsUp (clock k) = o.limits.timeIsUp (clock' k))
    (patience : Nat) : entryBlock o patience e clock = entryBlock o patience e clock' := by
  cases hdecode : e.decode o.defaultSymbols o.blank with
  | error cause => rw [entryBlock_of_error hdecode, entryBlock_of_error hdecode]
  | ok m => rw [entryBlock_of_ok hdecode, entryBlock_of_ok hdecode, Machine.trace_congr h]

theorem Prints.change_clock {lines : List String} (h : Prints o clock e lines)
    (hclock : ∀ k, o.limits.timeIsUp (clock k) = o.limits.timeIsUp (clock' k)) :
    Prints o clock' e lines := by
  cases h with
  | undecodable h => exact .undecodable h
  | result htrace h => exact .result htrace ⟨h.decode_eq, h.endsAt.change_clock hclock⟩
  | traced htrace h => exact .traced htrace ⟨h.decode_eq, h.endsAt.change_clock hclock⟩

end

/-! ## all entries -/

section
variable {o : Options} {entries : List Entry} {clocks clocks' : Nat → Clock} {patience : Nat}

theorem entryBlocks_eq_some_iff {blocks : List Block} :
    entryBlocks o patience clocks entries = some blocks ↔
      List.Forall₂ (fun p b => entryBlock o patience p.1 p.2 = some b)
        (onClocks clocks entries) blocks :=
  mapM_eq_some_iff

/-- one patience is enough for all entries -/
theorem exists_patience {pairs : List (Entry × Clock)} (h : ∀ p ∈ pairs, Ends o p.2 p.1) :
    ∃ patience, ∀ more, patience ≤ more → ∀ p ∈ pairs, ∃ b, entryBlock o more p.1 p.2 = some b := by
  induction pairs with
  | nil => exact ⟨0, fun _ _ => nofun⟩
  | cons p pairs ih =>
    obtain ⟨q, hq⟩ := (h p List.mem_cons_self).exists_entryBlock
    obtain ⟨r, hr⟩ := ih fun p' hp' => h p' (List.mem_cons_of_mem p hp')
    refine ⟨max q r, fun more hle p' hp' => ?_⟩
    rcases List.mem_cons.mp hp' with rfl | hp'
    · exact hq more (by omega)
    · exact hr more (by omega) p' hp'

/-- there is a block for each entry, with enough patience, exactly if all runs come to an end -/
theorem exists_entryBlocks_iff :
    (∃ patience blocks, entryBlocks o patience clocks entries = some blocks) ↔
      ∀ p ∈ onClocks clocks entries, Ends o p.2 p.1 := by
  simp only [entryBlocks_eq_some_iff, exists_forall₂_iff]
  constructor
  · intro ⟨patience, h⟩ p hp
    obtain ⟨b, hb⟩ := h p hp
    exact ends_of_entryBlock hb
  · intro h
    obtain ⟨patience, hblocks⟩ := exists_patience h
    exact ⟨patience, hblocks patience (Nat.le_refl patience)⟩

theorem exists_mem_onClocks {e : Entry} (he : e ∈ entries) (clocks : Nat → Clock) :
    ∃ i, (e, clocks i) ∈ onClocks clocks entries := by
  obtain ⟨i, hi⟩ := List.getElem?_of_mem he
  exact ⟨i, List.mem_map.mpr ⟨(e, i), List.mem_zipIdx_iff_getElem?.mpr hi, rfl⟩⟩

theorem of_mem_onClocks {p : Entry × Clock} (h : p ∈ onClocks clocks entries) :
    p.1 ∈ entries ∧ ∃ i, p.2 = clocks i := by
  obtain ⟨⟨e, i⟩, hi, rfl⟩ := List.mem_map.mp h
  exact ⟨List.mem_of_getElem? (List.mem_zipIdx_iff_getElem?.mp hi), i, rfl⟩

theorem entryBlocks_congr (h : ∀ i, InTime o (clocks i)) (h' : ∀ i, InTime o (clocks' i)) :
    entryBlocks o patience clocks entries = entryBlocks o patience clocks' entries := by
  unfold entryBlocks onClocks
  rw [List.mapM_map, List.mapM_map]
  congr 1
  funext p
  exact entryBlock_congr ((h p.2).timeIsUp_eq (h' p.2)) patience

end

/-- the output is the blocks of the entries in order, one for each, and the exit code tells whether
some entry does not decode -/
structure ReportOf (o : Options) (clocks : Nat → Clock) (entries : List Entry) (report : Report) :
    Prop where
  out_eq : ∃ blocks,
    List.Forall₂ (fun p lines => Prints o p.2 p.1 lines) (onClocks clocks entries) blocks ∧
      report.out = String.join (blocks.flatten.map (· ++ "\n"))
  exitCode_le : report.exitCode ≤ 1
  exitCode_eq_one_iff : report.exitCode = 1 ↔
    ∃ e ∈ entries, ∃ cause, e.decode o.defaultSymbols o.blank = .error cause

theorem reportOf_ofBlocks {o : Options} {patience : Nat} {clocks : Nat → Clock}
    {entries : List Entry} {blocks : List Block}
    (h : entryBlocks o patience clocks entries = some blocks) :
    ReportOf o clocks entries (ofBlocks blocks) := by
  have hblocks := entryBlocks_eq_some_iff.mp h
  have hprints : List.Forall₂ (fun p lines => Prints o p.2 p.1 lines) (onClocks clocks entries)
      (blocks.map Block.printed) :=
    List.forall₂_map_right_iff.mpr (hblocks.imp fun _ _ hb => (entryBlock_eq_some hb).1)
  have hfailed : blocks.any Block.failed = true ↔
      ∃ e ∈ entries, ∃ cause, e.decode o.defaultSymbols o.blank = .error cause := by
    rw [List.any_eq_true]
    constructor
    · intro ⟨b, hb, hfailed⟩
      obtain ⟨p, hp, hblock⟩ := exists_of_mem_right hblocks hb
      exact ⟨p.1, (of_mem_onClocks hp).1, (entryBlock_eq_some hblock).2.mp hfailed⟩
    · intro ⟨e, he, hcause⟩
      obtain ⟨i, hmem⟩ := exists_mem_onClocks he clocks
      obtain ⟨b, hb, hblock⟩ := exists_of_mem_left hblocks hmem
      exact ⟨b, hb, (entryBlock_eq_some hblock).2.mpr hcause⟩
  have hexit : (ofBlocks blocks).exitCode = if blocks.any Block.failed then 1 else 0 := rfl
  refine ⟨⟨_, hprints, ?_⟩, ?_, ?_⟩
  · show unlines (blocks.flatMap Block.printed) = _
    rw [unlines, List.flatMap_def]
  · rw [hexit]
    split <;> omega
  · rw [hexit, ← hfailed]
    split <;> simp_all

/-- without the listing of the catalog the command gathers its entries and runs them -/
theorem respond_eq_runReport {o : Options} (hlist : o.list = false)
    (readFile : String → FileResult) (patience : Nat) (clocks : Nat → Clock) :
    respond o readFile patience clocks = runReport o readFile patience clocks :=
  if_neg (by rw [hlist]; decide)

theorem runReport_of_gathers {o : Options} {readFile : String → FileResult} {entries : List Entry}
    (h : Gathers o readFile entries) (patience : Nat) (clocks : Nat → Clock) :
    runReport o readFile patience clocks =
      (entryBlocks o patience clocks entries).map ofBlocks := by
  unfold runReport
  rw [gather_eq_ok_iff.mpr h]

theorem runReport_of_sourceFails {o : Options} {readFile : String → FileResult}
    (h : SourceFails o readFile) :
    ∃ err, ∀ patience clocks, runReport o readFile patience clocks = some ⟨1, "", err⟩ := by
  cases hgather : gather o readFile with
  | error fault =>
    refine ⟨unlines ["Error: " ++ fault.message], fun patience clocks => ?_⟩
    unfold runReport
    rw [hgather]
  | ok entries => exact absurd h (not_sourceFails_of_gathers (gather_eq_ok_iff.mp hgather))

/-- **Every entry is treated on its own, and the exit code is exact.**  If a source fails, nothing
is printed and the command fails.  Otherwise the entries are the codes, the machines of the catalog
and those of the file, and the command prints the block of each in this order and fails exactly if
one of them does not decode; it comes to an end if their runs do.  A block is settled by its entry,
the options and the clock of its run, and by the entry and the options alone as long as the budget
of time does not run out, as on a clock that stands still; and no run fails. -/
theorem entries_on_their_own {o : Options} (hlist : o.list = false)
    (readFile : String → FileResult) :
    (SourceFails o readFile → ∃ err, ∀ patience clocks,
      respond o readFile patience clocks = some ⟨1, "", err⟩) ∧
    (¬ SourceFails o readFile → ∃ entries, Gathers o readFile entries ∧
      (∀ patience clocks report, respond o readFile patience clocks = some report →
        ReportOf o clocks entries report) ∧
      ∀ clocks, (∃ patience report, respond o readFile patience clocks = some report) ↔
        ∀ p ∈ onClocks clocks entries, Ends o p.2 p.1) ∧
    (∀ e clock lines lines', Prints o clock e lines → Prints o clock e lines' → lines = lines') ∧
    InTime o Clock.stopped ∧
    (∀ e clock clock' lines lines', InTime o clock → InTime o clock' →
      Prints o clock e lines → Prints o clock' e lines' → lines = lines') ∧
    (∀ patience clocks clocks', (∀ i, InTime o (clocks i)) → (∀ i, InTime o (clocks' i)) →
      respond o readFile patience clocks = respond o readFile patience clocks') ∧
    (∀ e clock m n outcome, Runs o clock e m n outcome → outcome.isFailed = false) := by
  simp only [respond_eq_runReport hlist]
  refine ⟨runReport_of_sourceFails, ?_, fun _ _ _ _ => Prints.unique, inTime_stopped o, ?_, ?_,
    fun _ _ _ _ _ => Runs.isFailed_eq_false⟩
  · intro hsources
    obtain ⟨entries, hentries⟩ := exists_gathers_iff.mpr hsources
    simp only [runReport_of_gathers hentries, Option.map_eq_some_iff]
    refine ⟨entries, hentries, ?_, fun clocks => ?_⟩
    · intro patience clocks report ⟨blocks, hblocks, heq⟩
      rw [← heq]
      exact reportOf_ofBlocks hblocks
    · rw [← exists_entryBlocks_iff]
      constructor
      · intro ⟨patience, _, blocks, hblocks, _⟩
        exact ⟨patience, blocks, hblocks⟩
      · intro ⟨patience, blocks, hblocks⟩
        exact ⟨patience, _, blocks, hblocks, rfl⟩
  · intro e clock clock' lines lines' hclock hclock' h h'
    exact (h.change_clock (hclock.timeIsUp_eq hclock')).unique h'
  · intro patience clocks clocks' hclocks hclocks'
    by_cases hsources : SourceFails o readFile
    · obtain ⟨err, herr⟩ := runReport_of_sourceFails hsources
      rw [herr, herr]
    · obtain ⟨entries, hentries⟩ := exists_gathers_iff.mpr hsources
      rw [runReport_of_gathers hentries, runReport_of_gathers hentries,
        entryBlocks_congr hclocks hclocks']

/-- a code that decodes, one that does not and a machine of the catalog, with two snapshots each -/
def mixedOptions : Options :=
  { Options.empty with
    codes := ["1RB0RB_1LA1RZ", "1RB"]
    known := ["bb2"]
    trace := some 2 }

/-- the bad code between two good ones costs its own line and the exit code -/
theorem entries_on_their_own_mixed :
    ¬ SourceFails mixedOptions (fun _ => .error .missing) ∧
      ∃ entries report, Gathers mixedOptions (fun _ => .error .missing) entries ∧
        respond mixedOptions (fun _ => .error .missing) 7 (fun _ => Clock.stopped) = some report ∧
        ReportOf mixedOptions (fun _ => Clock.stopped) entries report ∧ report.exitCode = 1 := by
  have hsources : ¬ SourceFails mixedOptions (fun _ => .error .missing) :=
    not_sourceFails_of_known rfl (by decide)
  obtain ⟨report, hreport, hexit⟩ : ∃ report,
      respond mixedOptions (fun _ => .error .missing) 7 (fun _ => Clock.stopped) = some report ∧
        report.exitCode = 1 := ⟨_, rfl, rfl⟩
  obtain ⟨_, hgathered, _⟩ := entries_on_their_own (o := mixedOptions) rfl fun _ => .error .missing
  obtain ⟨entries, hentries, hreports, _⟩ := hgathered hsources
  exact ⟨hsources, entries, report, hentries, hreport, hreports 7 _ report hreport, hexit⟩

end Holdout.Command
