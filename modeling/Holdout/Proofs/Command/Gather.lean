import Holdout.Command.Report
import Holdout.Proofs.Pointwise
import Mathlib.Data.List.Nodup

/-!
# Gathering the entries

The command gathers all entries before it runs the first, and a source that fails stops it there:
an unknown name, an unreadable file or a bad line.

* `Catalog.find_eq_ok_iff`   which names the catalog knows;
* `SourceFails`             a source fails;
* `Gathers`                 the entries to run: codes, names and lines, in this order;
* `gather_eq_ok_iff`, `exists_gathers_iff`   gathering gives these unless a source fails.
-/

namespace Holdout

/-! ## names of the catalog -/

/-- a name is looked up among the entries that the listing of the catalog gives -/
theorem Catalog.find_eq_ok_iff {name : String} {e : Listing.Entry} :
    Catalog.find name = .ok e ↔ e ∈ Catalog.load ∧ e.name = some name := by
  rw [Catalog.load_eq, Catalog.find]
  cases hfind : Catalog.entries.find? fun e => e.name == some name with
  | none =>
    simp only [reduceCtorEq, false_iff]
    intro ⟨hmem, hname⟩
    exact List.find?_eq_none.mp hfind e hmem (beq_iff_eq.mpr hname)
  | some e' =>
    have hmem' := List.mem_of_find?_eq_some hfind
    have hfound := List.find?_some hfind
    have hname' : e'.name = some name := beq_iff_eq.mp hfound
    constructor
    · intro h
      cases h
      exact ⟨hmem', hname'⟩
    · intro ⟨hmem, hname⟩
      -- no two machines of the catalog share a name
      have hnodup : (Catalog.entries.map Listing.Entry.name).Nodup := by decide
      rw [List.inj_on_of_nodup_map hnodup hmem hmem' (hname.trans hname'.symm)]

theorem Catalog.exists_find_eq_ok_iff {name : String} :
    (∃ e, Catalog.find name = .ok e) ↔ name ∈ Catalog.names := by
  have hlabel : ∀ e ∈ Catalog.entries, e.name = some e.label := by decide
  simp only [Catalog.find_eq_ok_iff, Catalog.load_eq, Catalog.names, List.mem_map]
  refine exists_congr fun e => and_congr_right fun hmem => ?_
  rw [hlabel e hmem, Option.some_inj]

namespace Command

open Listing (Entry FileResult)

/-! ## gathering -/

/-- the lines of a listing that are read, in order -/
def linesOf (content : String) : List (List Char × Nat) := Listing.keptLines content.toList

/-- a catalog name is unknown, or the file cannot be read or has a bad line -/
inductive SourceFails (o : Options) (readFile : String → FileResult) : Prop
  | name {name : String} (hname : name ∈ o.known) (h : name ∉ Catalog.names)
  | file {path : String} {failure : Listing.ReadFailure} (hpath : o.file = some path)
    (h : Listing.textOf (readFile path) = .error failure)
  | line {path content : String} {line : List Char × Nat} {fault : Listing.SourceError}
    (hpath : o.file = some path) (hcontent : Listing.textOf (readFile path) = .ok content)
    (hline : line ∈ linesOf content) (h : Listing.readLine line = .error fault)

/-- the entries of the file, one for each of its lines that is read; none without a file -/
inductive Lists (o : Options) (readFile : String → FileResult) : List Entry → Prop
  | none (hpath : o.file = none) : Lists o readFile []
  | file {path content : String} {listed : List Entry} (hpath : o.file = some path)
    (hcontent : Listing.textOf (readFile path) = .ok content)
    (h : List.Forall₂ (fun line e => Listing.readLine line = .ok e) (linesOf content) listed) :
    Lists o readFile listed

/-- the entries to run: the codes, then the machines of the catalog, then those of the file -/
def Gathers (o : Options) (readFile : String → FileResult) (entries : List Entry) : Prop :=
  ∃ named listed,
    List.Forall₂ (fun name e => e ∈ Catalog.load ∧ e.name = some name) o.known named ∧
      Lists o readFile listed ∧ entries = o.codes.map Entry.ofCode ++ named ++ listed

section
variable {o : Options} {readFile : String → FileResult}

/-- what is read of the file, if there is one -/
def listedOf (o : Options) (readFile : String → FileResult) :
    Except Listing.SourceError (List Entry) :=
  match o.file with
  | none => pure []
  | some path => Listing.ofFile path (readFile path)

theorem ofFile_eq_ok_iff {path : String} {result : FileResult} {listed : List Entry} :
    Listing.ofFile path result = .ok listed ↔ ∃ content, Listing.textOf result = .ok content ∧
      List.Forall₂ (fun line e => Listing.readLine line = .ok e) (linesOf content) listed := by
  unfold Listing.ofFile
  cases Listing.textOf result with
  | error failure => simp
  | ok content =>
    show (linesOf content).mapM Listing.readLine = .ok listed ↔ _
    rw [mapM_eq_ok_iff]
    simp

theorem lists_iff_of_none {listed : List Entry} (hpath : o.file = none) :
    Lists o readFile listed ↔ listed = [] := by
  constructor
  · intro h
    cases h with
    | none _ => rfl
    | file hpath' _ _ =>
      rw [hpath] at hpath'
      cases hpath'
  · intro h
    rw [h]
    exact .none hpath

theorem lists_iff_of_some {path : String} {listed : List Entry} (hpath : o.file = some path) :
    Lists o readFile listed ↔ ∃ content, Listing.textOf (readFile path) = .ok content ∧
      List.Forall₂ (fun line e => Listing.readLine line = .ok e) (linesOf content) listed := by
  constructor
  · intro h
    cases h with
    | none hpath' =>
      rw [hpath] at hpath'
      cases hpath'
    | file hpath' hcontent h =>
      rw [hpath] at hpath'
      cases hpath'
      exact ⟨_, hcontent, h⟩
  · intro ⟨content, hcontent, h⟩
    exact .file hpath hcontent h

theorem listedOf_eq_ok_iff {listed : List Entry} :
    listedOf o readFile = .ok listed ↔ Lists o readFile listed := by
  unfold listedOf
  cases hpath : o.file with
  | none => rw [pure_eq_ok_iff, lists_iff_of_none hpath]
  | some path => exact ofFile_eq_ok_iff.trans (lists_iff_of_some hpath).symm

theorem gather_eq_ok_iff {entries : List Entry} :
    gather o readFile = .ok entries ↔ Gathers o readFile entries := by
  have hgather : gather o readFile = o.known.mapM Catalog.find >>= fun named =>
      listedOf o readFile >>= fun listed =>
        pure (o.codes.map Entry.ofCode ++ named ++ listed) := by
    unfold gather listedOf
    cases o.file <;> rfl
  rw [hgather, bind_eq_ok_iff]
  refine exists_congr fun named => ?_
  simp only [bind_eq_ok_iff, pure_eq_ok_iff, mapM_eq_ok_iff, listedOf_eq_ok_iff,
    Catalog.find_eq_ok_iff, exists_and_left]

theorem not_sourceFails_of_gathers {entries : List Entry} (h : Gathers o readFile entries) :
    ¬ SourceFails o readFile := by
  obtain ⟨named, listed, hnamed, hlisted, _⟩ := h
  intro hfails
  cases hfails with
  | name hname hunknown =>
    obtain ⟨e, _, he⟩ := exists_of_mem_left hnamed hname
    exact hunknown (Catalog.exists_find_eq_ok_iff.mp ⟨e, Catalog.find_eq_ok_iff.mpr he⟩)
  | file hpath hfailure =>
    obtain ⟨content, hcontent, _⟩ := (lists_iff_of_some hpath).mp hlisted
    rw [hfailure] at hcontent
    cases hcontent
  | line hpath hcontent hline hfault =>
    obtain ⟨content, hcontent', hentries⟩ := (lists_iff_of_some hpath).mp hlisted
    rw [hcontent] at hcontent'
    cases hcontent'
    obtain ⟨e, _, he⟩ := exists_of_mem_left hentries hline
    rw [hfault] at he
    cases he

/-- without a file only a name can fail -/
theorem not_sourceFails_of_known (hfile : o.file = none)
    (hknown : ∀ name ∈ o.known, name ∈ Catalog.names) : ¬ SourceFails o readFile := by
  intro h
  cases h with
  | name hname hunknown => exact hunknown (hknown _ hname)
  | file hpath _ =>
    rw [hfile] at hpath
    cases hpath
  | line hpath _ _ _ =>
    rw [hfile] at hpath
    cases hpath

theorem exists_lists_of_not_sourceFails (h : ¬ SourceFails o readFile) :
    ∃ listed, Lists o readFile listed := by
  cases hpath : o.file with
  | none => exact ⟨[], .none hpath⟩
  | some path =>
    cases hcontent : Listing.textOf (readFile path) with
    | error failure => exact absurd (.file hpath hcontent) h
    | ok content =>
      have hread : ∀ line ∈ linesOf content, ∃ e, Listing.readLine line = .ok e := by
        intro line hline
        cases hentry : Listing.readLine line with
        | error fault => exact absurd (.line hpath hcontent hline hentry) h
        | ok e => exact ⟨e, rfl⟩
      obtain ⟨listed, hlisted⟩ := exists_forall₂_iff.mpr hread
      exact ⟨listed, .file hpath hcontent hlisted⟩

/-- gathering succeeds unless a source fails -/
theorem exists_gathers_iff :
    (∃ entries, Gathers o readFile entries) ↔ ¬ SourceFails o readFile := by
  constructor
  · intro ⟨entries, h⟩
    exact not_sourceFails_of_gathers h
  · intro h
    have hfind : ∀ name ∈ o.known, ∃ e, e ∈ Catalog.load ∧ e.name = some name := by
      intro name hname
      by_contra hnone
      simp only [← Catalog.find_eq_ok_iff] at hnone
      exact h (.name hname fun hmem => hnone (Catalog.exists_find_eq_ok_iff.mpr hmem))
    obtain ⟨named, hnamed⟩ := exists_forall₂_iff.mpr hfind
    obtain ⟨listed, hlisted⟩ := exists_lists_of_not_sourceFails h
    exact ⟨_, named, listed, hnamed, hlisted, rfl⟩

end

end Command

end Holdout
