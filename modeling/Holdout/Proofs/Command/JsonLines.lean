import Holdout.Proofs.Command.Blocks
import Holdout.Proofs.Json.Exchange
import Holdout.Proofs.Json.Printable
import Holdout.Proofs.Run.Counters
import Holdout.Proofs.Text.Pieces

/-!
# One JSON value on each line

With `--json` the lines of an entry are JSON values, and since no such value has a line feed in its
text, the output comes apart at its line feeds into just these lines.  Names and codes are given by
the user, so they may hold anything; they are read back all the same.  This is so on any clocks, so
a run may well be ended by its budget of time.

* `splitOn_unlines`       lines without line feeds come apart again;
* `Says`                  a line is a record that names the entry and its status;
* `SaysError`, `SaysResult`, `SaysTrace`   what the lines of an entry are read as;
* `Speaks`, `JsonLines`   the lines of one entry and of all of them;
* `Runs.fits`             what a run reports are numbers of 64 bits, unless the run is too long;
* `json_output_is_lines`  the whole output.
-/

namespace Holdout.Command

open Json (Value)
open Listing (Entry FileResult)

/-! ## lines -/

theorem toList_unlines_cons (line : String) (lines : List String) :
    (unlines (line :: lines)).toList = line.toList ++ '\n' :: (unlines lines).toList := by
  simp [unlines, String.toList_join]

theorem splitOn_unlines {lines : List String} (h : ∀ line ∈ lines, '\n' ∉ line.toList) :
    (unlines lines).toList.splitOn '\n' = lines.map String.toList ++ [[]] := by
  induction lines with
  | nil => rfl
  | cons line lines ih =>
    obtain ⟨hline, hlines⟩ := List.forall_mem_cons.mp h
    rw [toList_unlines_cons, Text.splitOn_append_cons, List.splitOn_eq_singleton hline, ih hlines]
    rfl

/-! ## what the lines are read as -/

/-- one record, every key of it there once, with the name, the code and the status of an entry -/
structure Says (e : Entry) (status : String) (line : String) (fields : List (String × Value)) :
    Prop where
  read_eq : Json.read? line = some (.record fields)
  nodup : (fields.map Prod.fst).Nodup
  name : fields.lookup "name" = some (.text e.label)
  code : fields.lookup "code" = some (.text e.code)
  status : fields.lookup "status" = some (.text status)

def SaysError (e : Entry) (cause : DecodeError) (line : String) : Prop :=
  ∃ fields, Says e "ERROR" line fields ∧ fields.lookup "error" = some (.text cause.message)

/-- the result is read back, as long as its numbers are of 64 bits -/
def SaysResult (e : Entry) (outcome : Outcome) (line : String) : Prop :=
  ∃ fields, Says e outcome.status line fields ∧
    fields.lookup "result" = some outcome.toJson ∧
    (outcome.Fits → Outcome.ofJson? outcome.toJson = some outcome)

def SaysTrace (kept : List Snapshot) (line : String) : Prop :=
  Json.read? line = some (Trace.toJson kept) ∧
    ((∀ s ∈ kept, s.Fits) → Json.readAs? (Value.listOf? Snapshot.ofJson?) line = some kept)

/-- the lines of an entry: one, and one more for the snapshots of an entry that decodes -/
inductive Speaks (o : Options) (clock : Clock) (e : Entry) : List String → Prop
  | undecodable {cause : DecodeError} {line : String}
    (h : e.decode o.defaultSymbols o.blank = .error cause) (hline : SaysError e cause line) :
    Speaks o clock e [line]
  | result {m : Machine} {n : Nat} {outcome : Outcome} {line : String} (htrace : o.trace = none)
    (h : Runs o clock e m n outcome) (hline : SaysResult e outcome line) :
    Speaks o clock e [line]
  | traced {m : Machine} {n most : Nat} {outcome : Outcome} {line trace : String}
    (htrace : o.trace = some most) (h : Runs o clock e m n outcome)
    (hline : SaysResult e outcome line)
    (hkept : SaysTrace (((m.observed n).map Snapshot.ofConfig).take most) trace) :
    Speaks o clock e [line, trace]

/-- the output comes apart into the lines of all entries in order; nothing follows the last line -/
def JsonLines (o : Options) (clocks : Nat → Clock) (entries : List Entry) (out : String) : Prop :=
  ∃ blocks,
    List.Forall₂ (fun p lines => Speaks o p.2 p.1 lines) (onClocks clocks entries) blocks ∧
      out.toList.splitOn '\n' = blocks.flatten.map String.toList ++ [[]]

section
variable {o : Options} {clock : Clock} {e : Entry}

theorem saysError_errorLine (hjson : o.json = true) (e : Entry) (cause : DecodeError) :
    SaysError e cause (errorLine o e cause) := by
  have hkeys : ["code", "error", "name", "status"].Nodup := by decide
  rw [errorLine, if_pos hjson]
  exact ⟨_, ⟨Json.read?_write _, hkeys, rfl, rfl, rfl⟩, rfl⟩

theorem saysResult_resultLine (hjson : o.json = true) (e : Entry) (outcome : Outcome) :
    SaysResult e outcome (resultLine o e outcome) := by
  have hkeys : ["code", "name", "result", "status"].Nodup := by decide
  rw [resultLine, if_pos hjson]
  exact ⟨_, ⟨Json.read?_write _, hkeys, rfl, rfl, rfl⟩, rfl, Outcome.exchanges.read_write⟩

theorem saysTrace_write (kept : List Snapshot) : SaysTrace kept (Trace.toJson kept).write := by
  refine ⟨Json.read?_write _, fun hfits => ?_⟩
  exact Snapshot.exchanges.listOf?.roundTrips.read_text kept hfits

theorem Prints.speaks (hjson : o.json = true) {lines : List String} (h : Prints o clock e lines) :
    Speaks o clock e lines := by
  cases h with
  | undecodable h => exact .undecodable h (saysError_errorLine hjson e _)
  | result htrace h => exact .result htrace h (saysResult_resultLine hjson e _)
  | traced htrace h =>
    exact .traced htrace h (saysResult_resultLine hjson e _) (saysTrace_write _)

/-- every line of an entry is the text of a value -/
theorem Prints.written (hjson : o.json = true) {lines : List String} (h : Prints o clock e lines) :
    ∀ line ∈ lines, ∃ v : Value, line = v.write := by
  cases h with
  | undecodable h => exact List.forall_mem_singleton.mpr ⟨_, if_pos hjson⟩
  | result htrace h => exact List.forall_mem_singleton.mpr ⟨_, if_pos hjson⟩
  | traced htrace h =>
    exact List.forall_mem_cons.mpr ⟨⟨_, if_pos hjson⟩, List.forall_mem_singleton.mpr ⟨_, rfl⟩⟩

theorem ReportOf.jsonLines (hjson : o.json = true) {clocks : Nat → Clock} {entries : List Entry}
    {report : Report} (h : ReportOf o clocks entries report) :
    JsonLines o clocks entries report.out := by
  obtain ⟨blocks, hblocks, hout⟩ := h.out_eq
  refine ⟨blocks, hblocks.imp fun _ _ hprints => hprints.speaks hjson, ?_⟩
  rw [hout, ← unlines]
  refine splitOn_unlines fun line hline => ?_
  obtain ⟨lines, hlines, hmem⟩ := List.mem_flatten.mp hline
  obtain ⟨p, _, hprints⟩ := exists_of_mem_right hblocks hlines
  obtain ⟨v, rfl⟩ := hprints.written hjson line hmem
  exact v.feed_not_mem_write

end

/-- a run over all entries prints nothing, or what each of them prints -/
theorem reportOf_of_runReport {o : Options} {readFile : String → FileResult} {patience : Nat}
    {clocks : Nat → Clock} {report : Report}
    (h : runReport o readFile patience clocks = some report) :
    (SourceFails o readFile ∧ report.out = "") ∨
      ∃ entries, Gathers o readFile entries ∧ ReportOf o clocks entries report := by
  by_cases hsources : SourceFails o readFile
  · obtain ⟨err, herr⟩ := runReport_of_sourceFails hsources
    rw [herr] at h
    cases h
    exact .inl ⟨hsources, rfl⟩
  · obtain ⟨entries, hentries⟩ := exists_gathers_iff.mpr hsources
    rw [runReport_of_gathers hentries] at h
    obtain ⟨blocks, hblocks, rfl⟩ := Option.map_eq_some_iff.mp h
    exact .inr ⟨entries, hentries, reportOf_ofBlocks hblocks⟩

/-! ## numbers of 64 bits -/

section
variable {o : Options} {clock : Clock} {e : Entry} {m : Machine} {n : Nat} {outcome : Outcome}

/-- cells hold at most nine, and there is at most one cell more than there are transitions -/
theorem Runs.fits (h : Runs o clock e m n outcome) (hn : 9 * (n + 1) < Decimal.wordBound) :
    outcome.Fits := by
  cases outcome with
  | halted score steps =>
    have hdecoded := Decoded.entry h.decode_eq
    have hsymbols : m.symbols ≤ 10 := hdecoded.symbols_eq.trans_le hdecoded.symbols_le
    obtain ⟨_, _, _, rfl⟩ := h.endsAt.of_halted
    obtain ⟨_, _, hscore⟩ := h.endsAt.bounded_of_halted hdecoded.closed
    have hmost : (m.symbols - 1) * min o.limits.space (steps + 1) ≤ 9 * (steps + 1) :=
      Nat.mul_le_mul (by omega) (Nat.min_le_right _ _)
    exact ⟨by omega, by omega⟩
  | exceeded limit => trivial
  | failed fault => exact absurd h.isFailed_eq_false Bool.noConfusion

theorem snapshot_fits {s : Snapshot} (hs : s ∈ (m.observed n).map Snapshot.ofConfig)
    (hn : n + 1 < Decimal.wordBound) : s.Fits := by
  obtain ⟨c, hc, rfl⟩ := List.mem_map.mp hs
  obtain ⟨k, hk, rfl⟩ := Machine.mem_observed_iff.mp hc
  have hvisited := Machine.visited_after_le_count (m := m) (k + 1)
  have hhead := (m.after (k + 1)).tape.head_lt_visited
  constructor
  · show (m.after (k + 1)).tape.head < _
    omega
  · show (m.after (k + 1)).tape.visited < _
    omega

end

/-- **With `--json` the output is one JSON value on each line.**  Whatever the names and codes of
the entries are and on any clocks, the output comes apart at its line feeds into one line for each
entry, and two for one that decodes if snapshots were asked for.  The first is a record with the
name, the code and the status of the entry, and the result in it is read back; the second is read as
the snapshots.  There is such an output exactly if all runs come to an end, as a run does when its
clock uses up the budget of time, and nothing is printed if a source fails. -/
theorem json_output_is_lines {o : Options} (hjson : o.json = true) :
    (∀ (entries : List Entry) clocks patience blocks,
      entryBlocks o patience clocks entries = some blocks →
        JsonLines o clocks entries (ofBlocks blocks).out) ∧
    (∀ (entries : List Entry) clocks,
      (∃ patience blocks, entryBlocks o patience clocks entries = some blocks) ↔
        ∀ p ∈ onClocks clocks entries, Ends o p.2 p.1) ∧
    (∀ e clock k, o.limits.timeIsUp (clock k) = true → Ends o clock e) ∧
    (o.list = false → ∀ readFile patience clocks report,
      respond o readFile patience clocks = some report →
        (SourceFails o readFile ∧ report.out = "") ∨
          ∃ entries, Gathers o readFile entries ∧ JsonLines o clocks entries report.out) ∧
    (∀ e outcome, SaysResult e outcome (resultLine o e outcome)) ∧
    ∀ e clock m n outcome, Runs o clock e m n outcome → 9 * (n + 1) < Decimal.wordBound →
      outcome.Fits ∧ ∀ s ∈ (m.observed n).map Snapshot.ofConfig, s.Fits := by
  refine ⟨fun _ _ _ _ hblocks => (reportOf_ofBlocks hblocks).jsonLines hjson,
    fun _ _ => exists_entryBlocks_iff, fun _ _ _ => ends_of_timeIsUp, ?_,
    saysResult_resultLine hjson, ?_⟩
  · intro hlist readFile patience clocks report hreport
    rw [respond_eq_runReport hlist] at hreport
    rcases reportOf_of_runReport hreport with hfails | ⟨entries, hentries, hof⟩
    · exact .inl hfails
    · exact .inr ⟨entries, hentries, hof.jsonLines hjson⟩
  · intro e clock m n outcome hruns hn
    exact ⟨hruns.fits hn, fun s hs => snapshot_fits hs (by omega)⟩

/-- a code with a line feed, a quote, a backslash and a control character, one that decodes and a
machine that never halts, with two snapshots each -/
def quotingOptions : Options :=
  { Options.empty with
    codes := ["1RB\n\"\\\x01", "1RB0RB_1LA1RZ"]
    known := ["cycler"]
    trace := some 2
    json := true }

/-- three tenths of a second between two looks -/
def slowClock : Clock := fun k => 300000000 * k

/-- the bad code is read back from its own line, and the report of its fault does not break it; the
good one halts just in time, and the last machine has used up its second after four transitions -/
theorem json_output_is_lines_quoting : quotingOptions.json = true ∧
    (∃ m n, Runs quotingOptions slowClock Catalog.cycler m n (.exceeded .time)) ∧
    ∃ entries report, Gathers quotingOptions (fun _ => .error .missing) entries ∧
      respond quotingOptions (fun _ => .error .missing) 7 (fun _ => slowClock) = some report ∧
      JsonLines quotingOptions (fun _ => slowClock) entries report.out := by
  have hsources : ¬ SourceFails quotingOptions (fun _ => .error .missing) :=
    not_sourceFails_of_known rfl (by decide)
  obtain ⟨m, hdecode, hrun⟩ : ∃ m, Catalog.cycler.decode 2 0 = .ok m ∧
      m.run quotingOptions.limits 7 slowClock = some (.exceeded .time) := ⟨_, rfl, rfl⟩
  obtain ⟨n, _, hends⟩ := Machine.run_eq_some_iff.mp hrun
  obtain ⟨report, hreport⟩ : ∃ report, respond quotingOptions (fun _ => .error .missing) 7
      (fun _ => slowClock) = some report := ⟨_, rfl⟩
  obtain ⟨_, _, _, hlines, _⟩ := json_output_is_lines (o := quotingOptions) rfl
  refine ⟨rfl, ⟨m, n, hdecode, hends⟩, ?_⟩
  rcases hlines rfl _ 7 _ report hreport with ⟨hfails, _⟩ | ⟨entries, hentries, hout⟩
  · exact absurd hfails hsources
  · exact ⟨entries, report, hentries, hreport, hout⟩

end Holdout.Command
