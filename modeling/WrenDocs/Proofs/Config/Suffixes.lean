import WrenDocs.Config.Read
import WrenDocs.Proofs.Lookup
import WrenDocs.Proofs.Toml.Distinct

/-! Suffix tables: a list of entries becomes a table that finds what the list has,
and a table is the one that its own entries become. -/
namespace WrenDocs

namespace SuffixTable

/-! ## From a table's own entries -/

/-- A suffix after all others has its place at the end. -/
theorem place_last {suffix : String} {format : SourceFormat}
    {entries : List (String × SourceFormat)} (h : ∀ entry ∈ entries, entry.1 < suffix) :
    place suffix format entries = entries ++ [(suffix, format)] := by
  induction entries with
  | nil => rfl
  | cons first entries ih =>
    obtain ⟨hfirst, hrest⟩ := List.forall_mem_cons.mp h
    rw [place, if_neg (String.lt_asymm hfirst), if_pos hfirst, ih hrest, List.cons_append]

theorem entries_foldl_insert {entries : List (String × SourceFormat)} (table : SuffixTable)
    (h : (table.entries ++ entries).Pairwise fun a b => a.1 < b.1) :
    (entries.foldl (fun table entry => table.insert entry.1 entry.2) table).entries =
      table.entries ++ entries := by
  induction entries generalizing table with
  | nil => simp
  | cons entry entries ih =>
    have hlast : ∀ other ∈ table.entries, other.1 < entry.1 := fun other hother =>
      (List.pairwise_append.mp h).2.2 other hother entry (by simp)
    have hinsert : (table.insert entry.1 entry.2).entries = table.entries ++ [entry] :=
      place_last hlast
    rw [List.foldl_cons, ih, hinsert, List.append_assoc, List.singleton_append]
    rw [hinsert, List.append_assoc]
    exact h

theorem ofList_entries (table : SuffixTable) : ofList table.entries = table := by
  have h := @entries_foldl_insert table.entries empty table.ascending
  obtain ⟨entries, ascending⟩ := table
  exact mk.injEq .. ▸ h

theorem nodup_keys (table : SuffixTable) : (table.entries.map Prod.fst).Nodup := by
  rw [List.Nodup, List.pairwise_map]
  exact table.ascending.imp String.ne_of_lt

/-! ## From any entries -/

theorem lookup_place (suffix other : String) (format : SourceFormat)
    (entries : List (String × SourceFormat)) :
    (place suffix format entries).lookup other =
      if other = suffix then some format else entries.lookup other := by
  induction entries with
  | nil => rw [place, lookup_cons_ite]
  | cons first entries ih =>
    obtain ⟨known, old⟩ := first
    rw [place]
    split
    · rw [lookup_cons_ite]
    · rename_i hnlt
      split
      · rename_i hgt
        rw [lookup_cons_ite, ih, lookup_cons_ite]
        by_cases heq : other = known
        · rw [if_pos heq, if_neg (heq ▸ String.ne_of_lt hgt), if_pos heq]
        · rw [if_neg heq, if_neg heq]
      · rename_i hngt
        have hsame : suffix = known :=
          String.le_antisymm (String.not_lt.mp hngt) (String.not_lt.mp hnlt)
        rw [lookup_cons_ite, lookup_cons_ite, hsame]
        by_cases heq : other = known
        · rw [if_pos heq, if_pos heq]
        · rw [if_neg heq, if_neg heq, if_neg heq]

theorem find?_insert (table : SuffixTable) (suffix other : String) (format : SourceFormat) :
    (table.insert suffix format).find? other =
      if other = suffix then some format else table.find? other :=
  lookup_place suffix other format table.entries

theorem find?_foldl_insert {entries : List (String × SourceFormat)}
    (h : (entries.map Prod.fst).Nodup) (table : SuffixTable) (suffix : String) :
    (entries.foldl (fun table entry => table.insert entry.1 entry.2) table).find? suffix =
      (entries.lookup suffix).or (table.find? suffix) := by
  induction entries generalizing table with
  | nil => rfl
  | cons entry entries ih =>
    obtain ⟨hentry, hentries⟩ := List.nodup_cons.mp h
    rw [List.foldl_cons, ih hentries, find?_insert, lookup_cons_ite]
    by_cases heq : suffix = entry.1
    · rw [if_pos heq, if_pos heq, heq, lookup_of_not_mem hentry, Option.none_or, Option.some_or]
    · rw [if_neg heq, if_neg heq]

/-- A table finds under each suffix what the entries have, if they have it once. -/
theorem find?_ofList {entries : List (String × SourceFormat)} (h : (entries.map Prod.fst).Nodup)
    (suffix : String) : (ofList entries).find? suffix = entries.lookup suffix := by
  rw [ofList, find?_foldl_insert h]
  exact Option.or_none

end SuffixTable

/-! ## From a document -/

namespace Config
open Toml

/-- A value that stands for a source format: its name, or a table with its name as
the only key and nothing under it. -/
def Names : Value → SourceFormat → Prop
  | .string name, format => name = format.name
  | .table [(name, value)], format => name = format.name ∧ (value = .array [] ∨ value = .table [])
  | _, _ => False

theorem ofName?_eq_some_iff {name : String} {format : SourceFormat} :
    SourceFormat.ofName? name = some format ↔ name = format.name := by
  constructor
  · intro h
    have hname := List.find?_some h
    exact (beq_iff_eq.mp hname).symm
  · rintro rfl
    exact SourceFormat.ofName?_name format

theorem isEmpty_iff {value : Value} :
    isEmpty value = true ↔ value = .array [] ∨ value = .table [] := by
  cases value <;> simp [isEmpty]

theorem readFormat_eq_some_iff {value : Value} {format : SourceFormat} :
    readFormat value = some format ↔ Names value format := by
  match value with
  | .string name => exact ofName?_eq_some_iff
  | .table [(name, value)] =>
    rw [readFormat, Names, ← isEmpty_iff, ← ofName?_eq_some_iff]
    split
    · simp_all
    · simp_all
  | .table [] | .table (_ :: _ :: _) | .array _ | .boolean _ | .integer _ | .float _ | .dateTime _ =>
    simp [readFormat, Names]

theorem names_of_mapM {entries : Table} {found : List (String × SourceFormat)}
    (h : entries.mapM (fun entry => (readFormat entry.2).map (entry.1, ·)) = some found) :
    found.map Prod.fst = entries.map Prod.fst ∧
      ∀ suffix, Option.Rel Names (entries.lookup suffix) (found.lookup suffix) := by
  induction entries generalizing found with
  | nil =>
    cases h
    exact ⟨rfl, fun _ => .none⟩
  | cons entry entries ih =>
    simp only [List.mapM_cons, Option.bind_eq_bind, Option.bind_eq_some_iff, Option.map_eq_some_iff,
      Option.pure_def, Option.some.injEq] at h
    obtain ⟨_, ⟨format, hformat, rfl⟩, rest, hrest, rfl⟩ := h
    obtain ⟨hkeys, hlookup⟩ := ih hrest
    refine ⟨by rw [List.map_cons, List.map_cons, hkeys], fun suffix => ?_⟩
    rw [lookup_cons_ite, lookup_cons_ite]
    split
    · exact .some (readFormat_eq_some_iff.mp hformat)
    · exact hlookup suffix

/-- Suffixes that are read from a table are the table's, each with the format that
its value names. -/
theorem names_of_readSuffixes {value : Value} {suffixes : SuffixTable} (hvalue : value.Distinct)
    (h : readSuffixes value = some suffixes) :
    ∃ entries, value = .table entries ∧
      ∀ suffix, Option.Rel Names (entries.lookup suffix) (suffixes.find? suffix) := by
  cases hvalue with
  | table hkeys _ =>
    obtain ⟨found, hfound, rfl⟩ := Option.map_eq_some_iff.mp h
    obtain ⟨hsame, hnames⟩ := names_of_mapM hfound
    refine ⟨_, rfl, fun suffix => ?_⟩
    rw [SuffixTable.find?_ofList (hsame ▸ hkeys)]
    exact hnames suffix
  | string | boolean | integer | float | dateTime | array => cases h

end Config

end WrenDocs
