import BuildConstants.Document.Decode
import BuildConstants.Proofs.Outcome

/-!
# Records as tables

A table is read as a record entry by entry. `Matches` says which fields its entries are for, and
`Gathers` what becomes of the state when these read their values one after the other. A table that
matches a record is read so (`readTable_of_matches`), and a closed record admits no other table
(`matches_of_readTable`).
-/

namespace BuildConstants.Document.RecordLayout

/-- The entry is under the name of a field and holds the value that goes with it. -/
def Names {σ : Type} (format : DocumentFormat) (entry : Document × Document)
    (given : Field σ × Document) : Prop :=
  fieldName format entry.1 = .ok given.1.name ∧ entry.2 = given.2

/-- The entries of a table give some fields of a record their values, each field once, and leave out
none that is needed. -/
structure Matches {σ : Type} (layout : RecordLayout σ) (format : DocumentFormat)
    (entries : List (Document × Document)) (values : List (Field σ × Document)) : Prop where
  paired : List.Forall₂ (Names format) entries values
  known : ∀ given ∈ values, given.1 ∈ layout.fields
  once : (values.map (·.1.name)).Nodup
  whole : ∀ field ∈ layout.fields, field.omission = .nowhere → field.name ∈ values.map (·.1.name)

/-- Fields read their values into the state, one after the other. -/
inductive Gathers {σ : Type} : σ → List (Field σ × Document) → σ → Prop where
  | nil {state} : Gathers state [] state
  | cons {state next final field value rest} (read : field.read value state = .ok next)
      (others : Gathers next rest final) : Gathers state ((field, value) :: rest) final

variable {σ : Type} {layout : RecordLayout σ} {format : DocumentFormat} {seen read : List String}
  {state final : σ} {field : Field σ} {entries : List (Document × Document)}
  {values : List (Field σ × Document)}

/-- A field is found by its name when no two fields share one. -/
theorem find?_name (distinct : layout.names.Nodup) (member : field ∈ layout.fields) :
    layout.fields.find? (·.name = field.name) = some field := by
  rw [names] at distinct
  generalize layout.fields = fields at distinct member
  induction fields with
  | nil => cases member
  | cons first others ih =>
      obtain ⟨absent, distinct⟩ := List.nodup_cons.1 distinct
      rcases List.mem_cons.1 member with rfl | later
      · exact List.find?_cons_of_pos (decide_eq_true rfl)
      · have differs : first.name ≠ field.name := fun same =>
          absent (List.mem_map.2 ⟨field, later, same.symm⟩)
        rw [List.find?_cons_of_neg (by simpa using differs)]
        exact ih distinct later

/-- Nothing that is needed is missing when it has been read. -/
theorem missing?_eq_none_iff :
    layout.missing? seen = none ↔
      ∀ field ∈ layout.fields, field.omission = .nowhere → field.name ∈ seen := by
  simp [missing?]

/-! ## Reading what matches -/

theorem readEntries_of_gathers (distinct : layout.names.Nodup)
    (paired : List.Forall₂ (Names format) entries values)
    (known : ∀ given ∈ values, given.1 ∈ layout.fields) (once : (values.map (·.1.name)).Nodup)
    (fresh : ∀ given ∈ values, given.1.name ∉ seen) (gathers : Gathers state values final) :
    layout.readEntries format seen state entries =
      .ok ((values.map (·.1.name)).reverse ++ seen, final) := by
  induction gathers generalizing seen entries with
  | nil =>
      cases paired
      rfl
  | @cons state next final field value rest read _ ih =>
      cases paired with
      | @cons entry _ others _ names paired =>
          obtain ⟨key, _⟩ := entry
          obtain ⟨named, rfl⟩ := names
          obtain ⟨absent, once⟩ := List.nodup_cons.1 once
          have later : ∀ given ∈ rest, given.1.name ∉ field.name :: seen := by
            intro given member isSeen
            rcases List.mem_cons.1 isSeen with same | before
            · exact absent (List.mem_map.2 ⟨given, member, same⟩)
            · exact fresh given (List.mem_cons_of_mem _ member) before
          have rest := ih paired (fun given member => known given (List.mem_cons_of_mem _ member))
            once later
          have found := find?_name distinct (known _ List.mem_cons_self)
          have isFresh := fresh _ List.mem_cons_self
          dsimp only at named found isFresh read
          rw [readEntries, named]
          simp only [bind, Except.bind, found, if_neg isFresh, read, rest, List.map_cons,
            List.reverse_cons, List.append_assoc, List.singleton_append]

/-- A table that matches a record is read field by field. -/
theorem readTable_of_matches (distinct : layout.names.Nodup)
    (isMatch : layout.Matches format entries values) (gathers : Gathers layout.start values final) :
    layout.readTable format entries = .ok final := by
  have whole : layout.missing? ((values.map (·.1.name)).reverse ++ []) = none := by
    refine missing?_eq_none_iff.2 fun field member needed => ?_
    rw [List.append_nil, List.mem_reverse]
    exact isMatch.whole field member needed
  rw [readTable, readEntries_of_gathers distinct isMatch.paired isMatch.known isMatch.once
    (fun _ _ => List.not_mem_nil) gathers]
  simp only [bind, Except.bind, whole]

/-- The fields that have values, with these. -/
def given (fields : List (Field σ)) (documents : List (Option Document)) :
    List (Field σ × Document) :=
  (fields.zip documents).filterMap fun pair => pair.2.map (pair.1, ·)

/-- The entries that give fields their values under the names of the fields. -/
def entriesOf (values : List (Field σ × Document)) : List (Document × Document) :=
  values.map fun given => (.text given.1.name, given.2)

/-- Entries for the fields of a record in their order match it when those that are left out are not
needed. -/
theorem matches_given (documents : List (Option Document)) (distinct : layout.names.Nodup)
    (full : documents.length = layout.fields.length)
    (needed : ∀ pair ∈ layout.fields.zip documents, pair.1.omission = .nowhere → pair.2.isSome) :
    layout.Matches .json (entriesOf (given layout.fields documents))
      (given layout.fields documents) := by
  have paired : (layout.fields.zip documents).map (·.1) = layout.fields :=
    List.map_fst_zip (Nat.le_of_eq full.symm)
  have fields : (given layout.fields documents).map (·.1) =
      ((layout.fields.zip documents).filter (·.2.isSome)).map (·.1) := by
    rw [given, List.map_filterMap, ← List.filterMap_eq_map, List.filterMap_filter]
    refine List.filterMap_congr fun pair _ => ?_
    cases present : pair.2 <;> simp
  have ordered : ((given layout.fields documents).map (·.1)).Sublist layout.fields := by
    have kept := (List.filter_sublist (l := layout.fields.zip documents)
      (p := (·.2.isSome))).map Prod.fst
    rwa [paired, ← fields] at kept
  have same : (given layout.fields documents).map (·.1.name) =
      ((given layout.fields documents).map (·.1)).map (·.name) := by
    rw [List.map_map]
    rfl
  refine ⟨?_, fun pair member => ordered.subset (List.mem_map.2 ⟨pair, member, rfl⟩), ?_, ?_⟩
  · rw [entriesOf, List.forall₂_map_left_iff, List.forall₂_same]
    exact fun _ _ => ⟨rfl, rfl⟩
  · rw [same]
    exact (ordered.map Field.name).nodup distinct
  · intro field member isNeeded
    rw [← paired] at member
    obtain ⟨pair, present, rfl⟩ := List.mem_map.1 member
    rw [same, fields]
    refine List.mem_map.2 ⟨pair.1, List.mem_map.2 ⟨pair, List.mem_filter.2 ⟨present, ?_⟩, rfl⟩, rfl⟩
    exact needed pair present isNeeded

/-! ## What has been read matches -/

theorem gathers_of_readEntries (closed : layout.isOpen = false)
    (completed : layout.readEntries format seen state entries = .ok (read, final)) :
    ∃ values : List (Field σ × Document), List.Forall₂ (Names format) entries values ∧
      (∀ given ∈ values, given.1 ∈ layout.fields) ∧ (values.map (·.1.name)).Nodup ∧
      (∀ given ∈ values, given.1.name ∉ seen) ∧
      read = (values.map (·.1.name)).reverse ++ seen ∧ Gathers state values final := by
  induction entries generalizing seen state with
  | nil =>
      cases completed
      exact ⟨[], .nil, by simp, List.nodup_nil, by simp, rfl, .nil⟩
  | cons entry rest ih =>
      obtain ⟨key, value⟩ := entry
      rw [readEntries] at completed
      obtain ⟨name, named, completed⟩ := bind_eq_ok.1 completed
      split at completed
      next field found =>
          split at completed
          next => cases completed
          next isFresh =>
              obtain ⟨next, step, completed⟩ := bind_eq_ok.1 completed
              obtain ⟨values, paired, known, once, fresh, same, gathers⟩ := ih completed
              have sameName : field.name = name := by simpa using List.find?_some found
              subst sameName
              refine ⟨(field, value) :: values, .cons ⟨named, rfl⟩ paired, ?_, ?_, ?_, ?_,
                .cons step gathers⟩
              · exact List.forall_mem_cons.2 ⟨List.mem_of_find?_eq_some found, known⟩
              · refine List.nodup_cons.2 ⟨fun again => ?_, once⟩
                obtain ⟨given, member, same⟩ := List.mem_map.1 again
                exact fresh given member (same ▸ List.mem_cons_self)
              · exact List.forall_mem_cons.2 ⟨isFresh, fun given member isSeen =>
                  fresh given member (List.mem_cons_of_mem _ isSeen)⟩
              · rw [same, List.map_cons, List.reverse_cons, List.append_assoc]
                rfl
      next =>
          rw [closed] at completed
          cases completed

/-- A table that a closed record is read from matches it. -/
theorem matches_of_readTable (closed : layout.isOpen = false)
    (completed : layout.readTable format entries = .ok final) :
    ∃ values, layout.Matches format entries values ∧ Gathers layout.start values final := by
  obtain ⟨⟨read, state⟩, entered, completed⟩ := bind_eq_ok.1 completed
  obtain ⟨values, paired, known, once, -, rfl, gathers⟩ := gathers_of_readEntries closed entered
  dsimp only at completed
  split at completed
  next => cases completed
  next whole =>
      cases completed
      refine ⟨values, ⟨paired, known, once, fun field member needed => ?_⟩, gathers⟩
      simpa using missing?_eq_none_iff.1 whole field member needed

end BuildConstants.Document.RecordLayout
