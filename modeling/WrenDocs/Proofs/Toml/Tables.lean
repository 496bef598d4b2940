import WrenDocs.Proofs.Toml.Lines

/-! Tables that are written one inside the other: the lines of their sections
define them all, each with its keys in order. -/
namespace WrenDocs.Toml

/-! ## Adding at the end -/

namespace Draft

def keys (entries : Entries) : List String :=
  entries.map Prod.fst

theorem keys_append (front rest : Entries) : keys (front ++ rest) = keys front ++ keys rest :=
  List.map_append

variable {key : String} {change : Option Draft → Option Draft}

theorem alter_append {front : Entries} (h : key ∉ keys front) (rest : Entries) :
    alter key change (front ++ rest) = (alter key change rest).map (front ++ ·) := by
  induction front with
  | nil => simp
  | cons entry front ih =>
    obtain ⟨other, draft⟩ := entry
    simp only [keys, List.map_cons, List.mem_cons, not_or] at h
    rw [List.cons_append, alter, if_neg (Ne.symm h.1), ih h.2, Option.map_map]
    rfl

/-- A key that nothing stands for yet comes last. -/
theorem alter_new {entries : Entries} (h : key ∉ keys entries) :
    alter key change entries = (change none).map fun draft => entries ++ [(key, draft)] := by
  have hnew := @alter_append _ change _ h []
  rw [List.append_nil, alter, Option.map_map] at hnew
  exact hnew

theorem alter_last {front : Entries} (h : key ∉ keys front) (draft : Draft) :
    alter key change (front ++ [(key, draft)]) =
      (change (some draft)).map fun draft => front ++ [(key, draft)] := by
  rw [alter_append h, alter, if_pos rfl, Option.map_map]
  rfl

/-- Entries inside tables with headers, each the last in the one around it. A
table around is told by the entries before the next one, and its key. -/
def within : List (Entries × String) → Entries → Entries
  | [], entries => entries
  | (front, key) :: around, entries => front ++ [(key, table .header (within around entries))]

theorem within_append (around : List (Entries × String)) (front entries : Entries) (key : String) :
    within (around ++ [(front, key)]) entries =
      within around (front ++ [(key, table .header entries)]) := by
  induction around with
  | nil => rfl
  | cons first around ih => rw [List.cons_append, within, within, ih]

/-- The path of the innermost table leads to its entries. -/
theorem inTable_within {around : List (Entries × String)}
    (h : ∀ table ∈ around, table.2 ∉ keys table.1) (change : Entries → Option Entries)
    (entries : Entries) :
    inTable change (around.map Prod.snd) (within around entries) =
      (change entries).map (within around) := by
  induction around with
  | nil => simp [inTable, within]
  | cons first around ih =>
    obtain ⟨front, key⟩ := first
    obtain ⟨hfirst, haround⟩ := List.forall_mem_cons.mp h
    rw [List.map_cons, inTable, within, alter_last hfirst]
    simp only [ih haround, Option.map_map]
    rfl

end Draft

/-! ## One section -/

open Draft (Entries keys within)

/-- What settings define. -/
def drafts (settings : List (String × Setting)) : Entries :=
  settings.map fun entry => (entry.1, .value entry.2.toValue)

theorem keys_drafts (settings : List (String × Setting)) :
    keys (drafts settings) = settings.map Prod.fst := by
  simp [keys, drafts]

variable {around : List (Entries × String)}

theorem add_pairLine (haround : ∀ table ∈ around, table.2 ∉ keys table.1) {entries : Entries}
    {entry : String × Setting} (h : entry.1 ∉ keys entries) :
    Reading.add ⟨within around entries, around.map Prod.snd⟩ (pairLine entry) =
      some ⟨within around (entries ++ drafts [entry]), around.map Prod.snd⟩ := by
  simp only [pairLine, Reading.add]
  rw [Draft.inTable_within haround, Draft.defineDotted, Draft.define, Draft.alter_new h]
  rfl

/-- Keys that are all new come after the ones before, in order. -/
theorem foldlM_pairLine (haround : ∀ table ∈ around, table.2 ∉ keys table.1)
    {settings : List (String × Setting)} {entries : Entries}
    (h : (keys entries ++ settings.map Prod.fst).Nodup) :
    (settings.map pairLine).foldlM Reading.add ⟨within around entries, around.map Prod.snd⟩ =
      some ⟨within around (entries ++ drafts settings), around.map Prod.snd⟩ := by
  induction settings generalizing entries with
  | nil => simp [drafts]
  | cons entry settings ih =>
    have hnew : entry.1 ∉ keys entries := by
      intro hmem
      have hdisjoint := (List.nodup_append.mp h).2.2
      exact hdisjoint entry.1 hmem entry.1 (by simp) rfl
    have hrest : (keys (entries ++ drafts [entry]) ++ settings.map Prod.fst).Nodup := by
      rw [Draft.keys_append, keys_drafts, List.append_assoc, ← List.map_append]
      exact h
    rw [List.map_cons, List.foldlM_cons, add_pairLine haround hnew, Option.bind_eq_bind,
      Option.bind_some, ih hrest, List.append_assoc]
    rfl

theorem forall_mem_around {entries : Entries} {key : String}
    (haround : ∀ table ∈ around, table.2 ∉ keys table.1) (hkey : key ∉ keys entries) :
    ∀ table ∈ around ++ [(entries, key)], table.2 ∉ keys table.1 := by
  intro table htable
  rcases List.mem_append.mp htable with htable | htable
  · exact haround table htable
  · rw [List.mem_singleton.mp htable]
    exact hkey

/-- A section adds its table to the one around it. -/
theorem foldlM_lines (haround : ∀ table ∈ around, table.2 ∉ keys table.1) {entries : Entries}
    {key : String} (hkey : key ∉ keys entries) {settings : List (String × Setting)}
    (hsettings : (settings.map Prod.fst).Nodup) (current : List String) :
    (Section.lines ⟨around.map Prod.snd ++ [key], settings⟩).foldlM Reading.add
        ⟨within around entries, current⟩ =
      some ⟨within (around ++ [(entries, key)]) (drafts settings),
        (around ++ [(entries, key)]).map Prod.snd⟩ := by
  have hlines : Section.lines ⟨around.map Prod.snd ++ [key], settings⟩ =
      .blank :: .table (around.map Prod.snd) key :: settings.map pairLine := by
    simp [Section.lines]
  have hheader : Reading.add ⟨within around entries, current⟩
      (.table (around.map Prod.snd) key) =
        some ⟨within (around ++ [(entries, key)]) [], (around ++ [(entries, key)]).map Prod.snd⟩ := by
    rw [Reading.add, Draft.inTable_within haround, Draft.defineTable, Draft.alter_new hkey,
      Draft.within_append, List.map_append]
    rfl
  have hpairs := @foldlM_pairLine _ (forall_mem_around haround hkey) settings [] hsettings
  rw [hlines, List.foldlM_cons, Reading.add, Option.bind_eq_bind, Option.bind_some,
    List.foldlM_cons, hheader, Option.bind_eq_bind, Option.bind_some, hpairs]
  rfl

/-! ## All sections -/

/-- Tables in the order in which they are written, each with its settings and the
tables inside it. -/
inductive Tables where
  | nil
  | cons (key : String) (settings : List (String × Setting)) (inside : Tables) (next : Tables)

namespace Tables

def keys : Tables → List String
  | nil => []
  | cons key _ _ next => key :: next.keys

/-- The sections of the tables inside the one that a path leads to. -/
def sections (path : List String) : Tables → List Section
  | nil => []
  | cons key settings inside next =>
    ⟨path ++ [key], settings⟩ :: inside.sections (path ++ [key]) ++ next.sections path

/-- What the tables define. -/
def drafts : Tables → Entries
  | nil => []
  | cons key settings inside next =>
    (key, .table .header (Toml.drafts settings ++ inside.drafts)) :: next.drafts

/-- The keys in each table are all different. -/
def Distinct : Tables → Prop
  | nil => True
  | cons _ settings inside next =>
    (settings.map Prod.fst ++ inside.keys).Nodup ∧ inside.Distinct ∧ next.Distinct

end Tables

/-- Tables with different keys come after the entries before them, in order. -/
theorem foldlM_sections {tables : Tables} (h : tables.Distinct)
    (haround : ∀ table ∈ around, table.2 ∉ keys table.1) {entries : Entries}
    (hkeys : (keys entries ++ tables.keys).Nodup) (current : List String) :
    ∃ last, ((tables.sections (around.map Prod.snd)).flatMap Section.lines).foldlM Reading.add
        ⟨within around entries, current⟩ =
      some ⟨within around (entries ++ tables.drafts), last⟩ := by
  induction tables generalizing around entries current with
  | nil => exact ⟨current, by simp [Tables.sections, Tables.drafts]⟩
  | cons key settings inside next ihinside ihnext =>
    obtain ⟨hsettings, hinside, hnext⟩ := h
    have hkey : key ∉ keys entries := by
      intro hmem
      exact (List.nodup_append.mp hkeys).2.2 key hmem key (by simp [Tables.keys]) rfl
    have hsection := foldlM_lines haround hkey (List.nodup_append.mp hsettings).1 current
    rw [← keys_drafts] at hsettings
    obtain ⟨middle, hmiddle⟩ := ihinside hinside (forall_mem_around haround hkey) hsettings
      ((around ++ [(entries, key)]).map Prod.snd)
    have hrest : (keys (entries ++ [(key, .table .header (drafts settings ++ inside.drafts))]) ++
        next.keys).Nodup := by
      simpa [Draft.keys_append, Tables.keys, keys] using hkeys
    obtain ⟨last, hlast⟩ := ihnext hnext haround
      hrest middle
    have hsections : (Tables.cons key settings inside next).sections (around.map Prod.snd) =
        ⟨around.map Prod.snd ++ [key], settings⟩ ::
          inside.sections ((around ++ [(entries, key)]).map Prod.snd) ++
            next.sections (around.map Prod.snd) := by
      rw [Tables.sections, List.map_append]
      rfl
    refine ⟨last, ?_⟩
    rw [hsections, List.flatMap_append, List.flatMap_cons, List.foldlM_append, List.foldlM_append,
      hsection, Option.bind_eq_bind, Option.bind_some, hmiddle, Option.bind_some,
      Draft.within_append, hlast, List.append_assoc]
    rfl

/-! ## The table of a document -/

theorem Draft.toTable_append (front rest : Entries) :
    toTable (front ++ rest) = toTable front ++ toTable rest := by
  induction front with
  | nil => rfl
  | cons entry front ih => rw [List.cons_append, toTable, toTable, ih, List.cons_append]

/-- Settings as entries of a table. -/
def settingsTable (settings : List (String × Setting)) : Table :=
  settings.map fun entry => (entry.1, entry.2.toValue)

theorem toTable_drafts (settings : List (String × Setting)) :
    Draft.toTable (drafts settings) = settingsTable settings := by
  induction settings with
  | nil => rfl
  | cons entry settings ih =>
    have hcons : drafts (entry :: settings) = (entry.1, .value entry.2.toValue) :: drafts settings :=
      rfl
    rw [hcons, Draft.toTable, Draft.toValue, ih]
    rfl

namespace Tables

def toTable : Tables → Table
  | nil => []
  | cons key settings inside next =>
    (key, .table (settingsTable settings ++ inside.toTable)) :: next.toTable

theorem toTable_drafts (tables : Tables) : Draft.toTable tables.drafts = tables.toTable := by
  induction tables with
  | nil => rfl
  | cons key settings inside next ihinside ihnext =>
    rw [drafts, Draft.toTable, Draft.toValue, Draft.toTable_append, Toml.toTable_drafts, ihinside,
      ihnext, toTable]

end Tables

/-- Settings and tables with different keys read back as they were written. -/
theorem ofText?_sections {settings : List (String × Setting)} {tables : Tables}
    (hkeys : (settings.map Prod.fst ++ tables.keys).Nodup) (h : tables.Distinct)
    (hshort : ∀ part ∈ tables.sections [], part.header.length < depthLimit) :
    Table.ofText? (Section.writeAll (⟨[], settings⟩ :: tables.sections [])) =
      some (settingsTable settings ++ tables.toTable) := by
  have hparts : ∀ part ∈ (⟨[], settings⟩ : Section) :: tables.sections [],
      part.header.length < depthLimit := by
    rw [List.forall_mem_cons]
    exact ⟨by simp [depthLimit], hshort⟩
  have hfirst : (Section.lines ⟨[], settings⟩).foldlM Reading.add ⟨[], []⟩ =
      some ⟨drafts settings, []⟩ :=
    @foldlM_pairLine [] (by simp) settings [] (List.nodup_append.mp hkeys).1
  rw [← keys_drafts] at hkeys
  obtain ⟨last, hrest⟩ := @foldlM_sections [] _ h (by simp) _ hkeys []
  simp only [List.map_nil, within] at hrest
  rw [ofText?_writeAll hparts, List.flatMap_cons, List.foldlM_append, hfirst, Option.bind_eq_bind,
    Option.bind_some, hrest, Option.map_some, Draft.toTable_append, toTable_drafts,
    Tables.toTable_drafts]

end WrenDocs.Toml
