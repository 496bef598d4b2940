import WrenDocs.Proofs.Toml.Tables

/-! A table that a document describes has each key once, and so have all tables
in it: a definition that names a key again either adds to a table or is refused. -/
namespace WrenDocs.Toml

/-- Every table in a value has each of its keys once. -/
inductive Value.Distinct : Value → Prop where
  | string (value : String) : Distinct (.string value)
  | boolean (value : Bool) : Distinct (.boolean value)
  | integer (value : Int) : Distinct (.integer value)
  | float (written : String) : Distinct (.float written)
  | dateTime (written : String) : Distinct (.dateTime written)
  | array {items : List Value} : (∀ item ∈ items, Distinct item) → Distinct (.array items)
  | table {entries : Table} : (entries.map Prod.fst).Nodup →
      (∀ entry ∈ entries, Distinct entry.2) → Distinct (.table entries)

namespace Draft

inductive Distinct : Draft → Prop where
  | value {value : Value} : value.Distinct → Distinct (.value value)
  | table {origin : Origin} {entries : Entries} : (keys entries).Nodup →
      (∀ entry ∈ entries, Distinct entry.2) → Distinct (.table origin entries)
  | tables {elements : List Entries} : (∀ element ∈ elements, (keys element).Nodup) →
      (∀ element ∈ elements, ∀ entry ∈ element, Distinct entry.2) → Distinct (.tables elements)

/-- Entries with each key once, also in the tables in them. -/
def DistinctEntries (entries : Entries) : Prop :=
  (keys entries).Nodup ∧ ∀ entry ∈ entries, Distinct entry.2

theorem distinctEntries_nil : DistinctEntries [] :=
  ⟨.nil, by simp⟩

/-- A change that leaves keys distinct. -/
def KeepsDistinct (change : Entries → Option Entries) : Prop :=
  ∀ entries changed, DistinctEntries entries → change entries = some changed →
    DistinctEntries changed

/-- The same of a change to what one key stands for. -/
def KeepsDraftDistinct (change : Option Draft → Option Draft) : Prop :=
  ∀ found draft, (∀ old ∈ found, Distinct old) → change found = some draft → Distinct draft

theorem keys_alter {key : String} {change : Option Draft → Option Draft} {entries changed : Entries}
    (h : alter key change entries = some changed) :
    keys changed = keys entries ∨ key ∉ keys entries ∧ keys changed = keys entries ++ [key] := by
  induction entries generalizing changed with
  | nil =>
    rw [alter, Option.map_eq_some_iff] at h
    obtain ⟨draft, -, rfl⟩ := h
    exact .inr ⟨by simp [keys], rfl⟩
  | cons entry entries ih =>
    obtain ⟨other, draft⟩ := entry
    rw [alter] at h
    split at h
    · rename_i heq
      rw [Option.map_eq_some_iff] at h
      obtain ⟨new, -, rfl⟩ := h
      exact .inl (by simp [keys, heq])
    · rename_i hne
      rw [Option.map_eq_some_iff] at h
      obtain ⟨rest, hrest, rfl⟩ := h
      rcases ih hrest with heq | ⟨hnew, heq⟩
      · exact .inl (by simpa [keys] using heq)
      · refine .inr ⟨?_, ?_⟩
        · simpa [keys, Ne.symm hne] using hnew
        · simpa [keys] using heq

/-- An entry is as it was, or what has become of the key. -/
theorem mem_alter {key : String} {change : Option Draft → Option Draft} {entries changed : Entries}
    (h : alter key change entries = some changed) {entry : String × Draft}
    (hentry : entry ∈ changed) :
    entry ∈ entries ∨
      ∃ found, (∀ old ∈ found, (key, old) ∈ entries) ∧ change found = some entry.2 := by
  induction entries generalizing changed with
  | nil =>
    rw [alter, Option.map_eq_some_iff] at h
    obtain ⟨draft, hdraft, rfl⟩ := h
    rw [List.mem_singleton.mp hentry]
    exact .inr ⟨none, by simp, hdraft⟩
  | cons first entries ih =>
    obtain ⟨other, draft⟩ := first
    rw [alter] at h
    split at h
    · rename_i heq
      rw [Option.map_eq_some_iff] at h
      obtain ⟨new, hnew, rfl⟩ := h
      rcases List.mem_cons.mp hentry with rfl | hentry
      · exact .inr ⟨some draft, by simp [heq], hnew⟩
      · exact .inl (List.mem_cons_of_mem _ hentry)
    · rw [Option.map_eq_some_iff] at h
      obtain ⟨rest, hrest, rfl⟩ := h
      rcases List.mem_cons.mp hentry with rfl | hentry
      · exact .inl List.mem_cons_self
      · rcases ih hrest hentry with hold | ⟨found, hfound, hnew⟩
        · exact .inl (List.mem_cons_of_mem _ hold)
        · exact .inr ⟨found, fun old hold => List.mem_cons_of_mem _ (hfound old hold), hnew⟩

theorem KeepsDraftDistinct.alter {key : String} {change : Option Draft → Option Draft}
    (hchange : KeepsDraftDistinct change) : KeepsDistinct (alter key change) := by
  rintro entries changed ⟨hkeys, hentries⟩ h
  constructor
  · rcases keys_alter h with heq | ⟨hnew, heq⟩
    · rw [heq]
      exact hkeys
    · rw [heq, List.nodup_append]
      refine ⟨hkeys, by simp, ?_⟩
      rintro other hother last hlast rfl
      rw [List.mem_singleton] at hlast
      exact hnew (hlast ▸ hother)
  · intro entry hentry
    rcases mem_alter h hentry with hold | ⟨found, hfound, hnew⟩
    · exact hentries entry hold
    · exact hchange found entry.2 (fun old hold => hentries (key, old) (hfound old hold)) hnew

theorem KeepsDistinct.alterLast {change : Entries → Option Entries} (hchange : KeepsDistinct change)
    {elements changed : List Entries} (helements : ∀ element ∈ elements, DistinctEntries element)
    (h : alterLast change elements = some changed) :
    ∀ element ∈ changed, DistinctEntries element := by
  simp only [Draft.alterLast, Option.bind_eq_bind, Option.bind_eq_some_iff, Option.pure_def,
    Option.some.injEq] at h
  obtain ⟨last, hlast, new, hnew, rfl⟩ := h
  intro element helement
  rcases List.mem_append.mp helement with hold | hold
  · exact helements element (List.dropLast_subset elements hold)
  · rw [List.mem_singleton.mp hold]
    exact hchange last new (helements last (List.mem_of_getLast? hlast)) hnew

/-! ## What definitions do -/

theorem distinct_table {origin : Origin} {entries : Entries} :
    Distinct (.table origin entries) ↔ DistinctEntries entries := by
  constructor
  · rintro (_ | ⟨hkeys, hentries⟩)
    exact ⟨hkeys, hentries⟩
  · rintro ⟨hkeys, hentries⟩
    exact .table hkeys hentries

theorem distinct_tables {elements : List Entries} :
    Distinct (.tables elements) ↔ ∀ element ∈ elements, DistinctEntries element := by
  constructor
  · rintro (_ | _ | ⟨hkeys, hentries⟩) element helement
    exact ⟨hkeys element helement, hentries element helement⟩
  · intro h
    exact .tables (fun element helement => (h element helement).1)
      fun element helement => (h element helement).2

theorem KeepsDistinct.inTable {change : Entries → Option Entries} (hchange : KeepsDistinct change)
    (path : List String) : KeepsDistinct (inTable change path) := by
  induction path with
  | nil => exact hchange
  | cons key path ih =>
    apply KeepsDraftDistinct.alter
    intro found draft hfound h
    match found with
    | none =>
      obtain ⟨new, hnew, rfl⟩ := Option.map_eq_some_iff.mp h
      exact distinct_table.mpr (ih [] new distinctEntries_nil hnew)
    | some (.table origin entries) =>
      obtain ⟨new, hnew, rfl⟩ := Option.map_eq_some_iff.mp h
      exact distinct_table.mpr (ih entries new (distinct_table.mp (hfound _ rfl)) hnew)
    | some (.tables elements) =>
      obtain ⟨new, hnew, rfl⟩ := Option.map_eq_some_iff.mp h
      exact distinct_tables.mpr (ih.alterLast (distinct_tables.mp (hfound _ rfl)) hnew)
    | some (.value _) => cases h

theorem keepsDistinct_define {draft : Draft} (hdraft : draft.Distinct) (key : String) :
    KeepsDistinct (define key draft) := by
  apply KeepsDraftDistinct.alter
  intro found new hfound h
  match found with
  | none =>
    cases h
    exact hdraft
  | some _ => cases h

theorem keepsDistinct_defineDotted {draft : Draft} (hdraft : draft.Distinct) (last : String)
    (path : List String) : KeepsDistinct (defineDotted last draft path) := by
  induction path with
  | nil => exact keepsDistinct_define hdraft last
  | cons key path ih =>
    apply KeepsDraftDistinct.alter
    intro found new hfound h
    match found with
    | none =>
      obtain ⟨entries, hentries, rfl⟩ := Option.map_eq_some_iff.mp h
      exact distinct_table.mpr (ih [] entries distinctEntries_nil hentries)
    | some (.table origin entries) =>
      simp only [Option.ite_none_left_eq_some] at h
      obtain ⟨changed, hchanged, rfl⟩ := Option.map_eq_some_iff.mp h.2
      exact distinct_table.mpr (ih entries changed (distinct_table.mp (hfound _ rfl)) hchanged)
    | some (.tables elements) =>
      simp only [Option.ite_none_left_eq_some] at h
      obtain ⟨changed, hchanged, rfl⟩ := Option.map_eq_some_iff.mp h.2
      exact distinct_tables.mpr (ih.alterLast (distinct_tables.mp (hfound _ rfl)) hchanged)
    | some (.value _) => cases h

theorem keepsDistinct_defineTable (key : String) : KeepsDistinct (defineTable key) := by
  apply KeepsDraftDistinct.alter
  intro found new hfound h
  match found with
  | none =>
    cases h
    exact distinct_table.mpr distinctEntries_nil
  | some (.table .implied entries) =>
    cases h
    exact distinct_table.mpr (distinct_table.mp (hfound _ rfl))
  | some (.table .header _) | some (.table .dotted _) | some (.tables _) | some (.value _) => cases h

theorem keepsDistinct_defineElement (key : String) : KeepsDistinct (defineElement key) := by
  apply KeepsDraftDistinct.alter
  intro found new hfound h
  match found with
  | none =>
    cases h
    exact distinct_tables.mpr (by simp [distinctEntries_nil])
  | some (.tables elements) =>
    cases h
    have helements := distinct_tables.mp (hfound _ rfl)
    apply distinct_tables.mpr
    intro element helement
    rcases List.mem_append.mp helement with hold | hold
    · exact helements element hold
    · rw [List.mem_singleton.mp hold]
      exact distinctEntries_nil
  | some (.table _ _) | some (.value _) => cases h

/-! ## What drafts become -/

theorem toTable_eq_map (entries : Entries) :
    toTable entries = entries.map fun entry => (entry.1, entry.2.toValue) := by
  induction entries with
  | nil => rfl
  | cons entry entries ih => rw [toTable, ih, List.map_cons]

theorem toValues_eq_map (elements : List Entries) :
    toValues elements = elements.map fun entries => .table (toTable entries) := by
  induction elements with
  | nil => rfl
  | cons entries elements ih => rw [toValues, ih, List.map_cons]

theorem distinct_toTable {entries : Entries} (hkeys : (keys entries).Nodup)
    (h : ∀ entry ∈ entries, entry.2.toValue.Distinct) : (Value.table (toTable entries)).Distinct := by
  rw [toTable_eq_map]
  apply Value.Distinct.table
  · rw [List.map_map]
    exact hkeys
  · rw [List.forall_mem_map]
    exact h

theorem Distinct.toValue {draft : Draft} (h : draft.Distinct) : draft.toValue.Distinct := by
  induction h with
  | value hvalue =>
    rw [Draft.toValue]
    exact hvalue
  | table hkeys _ ih =>
    rw [Draft.toValue]
    exact distinct_toTable hkeys ih
  | tables hkeys _ ih =>
    rw [Draft.toValue, toValues_eq_map]
    apply Value.Distinct.array
    rw [List.forall_mem_map]
    exact fun element helement => distinct_toTable (hkeys element helement) (ih element helement)

theorem DistinctEntries.toTable {entries : Entries} (h : DistinctEntries entries) :
    (Value.table (toTable entries)).Distinct :=
  distinct_toTable h.1 fun entry hentry => (h.2 entry hentry).toValue

end Draft

/-! ## What is read -/

open Draft Reader

/-- What every step of a run keeps, the run keeps. -/
theorem of_foldlM {α β : Type} {kept : β → Prop} {step : β → α → Option β} {values : List α}
    {first last : β} (hstep : ∀ value ∈ values, ∀ before after, kept before →
      step before value = some after → kept after) (hfirst : kept first)
    (h : values.foldlM step first = some last) : kept last := by
  induction values generalizing first with
  | nil =>
    cases h
    exact hfirst
  | cons value values ih =>
    rw [List.foldlM_cons, Option.bind_eq_bind, Option.bind_eq_some_iff] at h
    obtain ⟨next, hnext, hrest⟩ := h
    obtain ⟨hvalue, hvalues⟩ := List.forall_mem_cons.mp hstep
    exact ih hvalues (hvalue first next hfirst hnext) hrest

theorem gives_trivial {α : Type} (read : Reader α) : Gives (fun _ => True) read :=
  fun _ _ _ _ => trivial

/-- A value that is told by what a reader took of the text. -/
theorem gives_written {read : Reader Unit} {value : String → Value}
    (h : ∀ written, (value written).Distinct) :
    Gives Value.Distinct fun text => (read text).map fun (_, rest) => (value (written text rest), rest) := by
  intro text found rest hread
  obtain ⟨⟨_, after⟩, -, heq⟩ := Option.map_eq_some_iff.mp hread
  cases heq
  exact h _

theorem gives_scalar : Gives Value.Distinct scalar := by
  apply Gives.orElse
  · exact (gives_trivial string).map fun _ _ => .string _
  apply Gives.orElse
  · exact (gives_trivial boolean).map fun _ _ => .boolean _
  apply Gives.orElse
  · exact gives_written .dateTime
  apply Gives.orElse
  · exact gives_written .float
  · exact (gives_trivial integer).map fun _ _ => .integer _

theorem gives_spaced {item : Reader Value} (h : Gives Value.Distinct item) :
    Gives Value.Distinct (spaced item) := by
  intro text found rest hread
  obtain ⟨given, hgiven, heq⟩ := Option.map_eq_some_iff.mp hread
  cases heq
  exact h _ given.1 given.2 hgiven

theorem gives_arrayRest {item : Reader Value} (h : Gives Value.Distinct item) :
    Gives (fun items => ∀ value ∈ items, value.Distinct) (arrayRest item) := by
  intro text items rest hread
  have hitems : items = (arrayItems item text).1 := by
    obtain ⟨_, -, heq⟩ := Option.map_eq_some_iff.mp hread
    cases heq
    rfl
  rw [hitems, arrayItems]
  cases hseparated : separatedBy (literal [',']) (spaced item) text with
  | none => simp
  | some found =>
    have hfound := (gives_spaced h).separatedBy (literal [',']) text found.1 found.2 hseparated
    dsimp only
    split
    · exact hfound
    · exact hfound

theorem gives_pair {value : Reader Value} (h : Gives Value.Distinct value) :
    Gives (fun found => found.2.2.Distinct) (pair value) := by
  intro text found rest hread
  simp only [pair, Option.bind_eq_bind, Option.bind_eq_some_iff, Option.pure_def,
    Option.some.injEq] at hread
  obtain ⟨_, -, _, -, ⟨value, after⟩, hvalue, heq⟩ := hread
  cases heq
  exact h _ value after hvalue

theorem gives_tableRest {value : Reader Value} (h : Gives Value.Distinct value) :
    Gives (fun table => (Value.table table).Distinct) (tableRest value) := by
  intro text table rest hread
  simp only [tableRest, Option.bind_eq_bind, Option.bind_eq_some_iff, Option.pure_def,
    Option.some.injEq] at hread
  obtain ⟨_, -, entries, hentries, heq⟩ := hread
  cases heq
  have hpairs : ∀ found ∈ ((separatedBy (literal [',']) (pair value) text).getD
      ([], skipBlanks text)).1, found.2.2.Distinct := by
    cases hseparated : separatedBy (literal [',']) (pair value) text with
    | none => simp
    | some found => exact (gives_pair h).separatedBy (literal [',']) text found.1 found.2 hseparated
  apply DistinctEntries.toTable
  refine of_foldlM (fun found hfound before after hbefore hafter => ?_) distinctEntries_nil hentries
  exact keepsDistinct_defineDotted (.value (hpairs found hfound)) found.2.1 found.1 before after
    hbefore hafter

theorem gives_value (depth : Nat) : Gives Value.Distinct (value depth) := by
  induction depth with
  | zero => exact gives_scalar
  | succ depth ih =>
    intro text found rest h
    rw [value] at h
    dsimp only at h
    split at h
    · exact (gives_arrayRest ih).map (fun _ => .array) _ found rest h
    · exact (gives_tableRest ih).map (fun _ hdistinct => hdistinct) _ found rest h
    · exact gives_scalar _ found rest h

/-- What the line holds that a document takes in. -/
def Line.Distinct : Line → Prop
  | .pair _ _ value => value.Distinct
  | _ => True

theorem gives_statement : Gives Line.Distinct statement := by
  apply Gives.orElse
  · exact (gives_trivial _).map fun _ _ => trivial
  apply Gives.orElse
  · exact (gives_trivial _).map fun _ _ => trivial
  · exact (gives_pair (gives_value _)).map fun _ hvalue => hvalue

theorem gives_line : Gives Line.Distinct line := by
  intro text said rest h
  have hstatement (text : Text) : ((statement text).getD (.blank, text)).1.Distinct := by
    cases hread : statement text with
    | none => trivial
    | some found => exact gives_statement text found.1 found.2 hread
  cases text with
  | nil => cases h
  | cons c text =>
    rw [line] at h
    · dsimp only at h
      split at h
      · cases h
        exact hstatement _
      · obtain ⟨_, -, heq⟩ := Option.map_eq_some_iff.mp h
        cases heq
        exact hstatement _
    · simp

theorem distinct_add {reading changed : Reading} {said : Line} (hsaid : said.Distinct)
    (hreading : DistinctEntries reading.entries) (h : reading.add said = some changed) :
    DistinctEntries changed.entries := by
  have hkeeps {change : Entries → Option Entries} (hchange : KeepsDistinct change)
      (path current : List String)
      (h : (inTable change path reading.entries).map (⟨·, current⟩) = some changed) :
      DistinctEntries changed.entries := by
    obtain ⟨entries, hentries, rfl⟩ := Option.map_eq_some_iff.mp h
    exact hchange.inTable path _ entries hreading hentries
  cases said with
  | blank =>
    cases h
    exact hreading
  | pair path last value => exact hkeeps (keepsDistinct_defineDotted (.value hsaid) last path) _ _ h
  | table path last => exact hkeeps (keepsDistinct_defineTable last) path _ h
  | element path last => exact hkeeps (keepsDistinct_defineElement last) path _ h

/-- A document describes a table with each key once, also in the tables in it. -/
theorem distinct_ofText? {document : Text} {table : Table} (h : Table.ofText? document = some table) :
    (Value.table table).Distinct := by
  rw [Table.ofText?] at h
  split at h
  · rename_i lines hlines
    simp only [Option.bind_eq_bind, Option.bind_eq_some_iff, Option.pure_def,
      Option.some.injEq] at h
    obtain ⟨reading, hreading, rfl⟩ := h
    have hsaid : ∀ said ∈ lines, said.Distinct := by
      have hmany := gives_line.many (withoutMark document)
      rw [hlines] at hmany
      exact hmany
    apply DistinctEntries.toTable
    exact @of_foldlM _ _ (fun reading => DistinctEntries reading.entries) _ _ _ _
      (fun said hmem before after hbefore hafter => distinct_add (hsaid said hmem) hbefore hafter)
      distinctEntries_nil hreading
  · cases h

end WrenDocs.Toml
