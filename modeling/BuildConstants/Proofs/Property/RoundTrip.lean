import BuildConstants.Proofs.Property.Fragment
import BuildConstants.SourceUnit.Text

/-!
# Raw texts and property maps

A property map is read back from its raw text exactly when all of its properties are writable. Every
map that is read of a raw text is of this kind, and each writable property can be read, which
`PropertyMap.resolve_toRaw_iff` says. A key that cannot be written is never configured.
-/

namespace BuildConstants

namespace Property

variable {p : Property} {ps : List Property}

/-- A property whose key comes last is inserted at the end. -/
theorem insertInto_of_last (last : ∀ q ∈ ps, q.key < p.key) : p.insertInto ps = ps ++ [p] := by
  induction ps with
  | nil => rfl
  | cons q rest ih =>
      have before := last q List.mem_cons_self
      have differs : p.key ≠ q.key := by
        intro same
        rw [same] at before
        exact String.lt_irrefl _ before
      rw [insertInto, if_neg (String.lt_asymm before), if_neg differs,
        ih fun other member => last other (List.mem_cons_of_mem _ member)]
      rfl

end Property

namespace PropertyMap

variable {m other : PropertyMap} {p : Property} {ps : List Property} {raw : Option String}

@[ext] theorem ext (same : m.entries = other.entries) : m = other := by
  cases m
  cases other
  cases same
  rfl

theorem entries_foldl_insert (sorted : Property.Increasing (m.entries ++ ps)) :
    (ps.foldl insert m).entries = m.entries ++ ps := by
  induction ps generalizing m with
  | nil => exact (List.append_nil _).symm
  | cons p rest ih =>
      have last : ∀ q ∈ m.entries, q.key < p.key := fun q member =>
        (List.pairwise_append.1 sorted).2.2 q member p List.mem_cons_self
      have inserted : (m.insert p).entries = m.entries ++ [p] := Property.insertInto_of_last last
      have whole : (m.insert p).entries ++ rest = m.entries ++ p :: rest := by
        rw [inserted, List.append_assoc]
        rfl
      rw [List.foldl_cons, ih (whole.symm ▸ sorted), whole]

/-- A map is made again of its entries. -/
theorem ofList_entries (m : PropertyMap) : ofList m.entries = m := by
  ext1
  exact entries_foldl_insert m.increasing

/-- A map has no properties but those that it is made of. -/
theorem mem_of_mem_ofList (member : p ∈ (ofList ps).entries) : p ∈ ps := by
  have kept : ∀ {ps : List Property} {m : PropertyMap},
      p ∈ (ps.foldl insert m).entries → p ∈ m.entries ∨ p ∈ ps := by
    intro ps
    induction ps with
    | nil => exact fun member => .inl member
    | cons q rest ih =>
        intro m member
        rcases ih member with inserted | later
        · rcases Property.mem_insertInto inserted with rfl | old
          · exact .inr List.mem_cons_self
          · exact .inl old
        · exact .inr (List.mem_cons_of_mem _ later)
  rcases kept member with none | given
  · cases none
  · exact given

/-- What a raw text configures is writable. -/
theorem writable_of_mem_resolve (member : p ∈ (resolve raw).entries) : p.Writable := by
  cases raw with
  | none => cases member
  | some text =>
      rw [resolve_some] at member
      exact Property.writable_of_mem_ofRaw (mem_of_mem_ofList member)

/-- Writable properties are read back from the raw text of a map. -/
theorem ofRaw_toRaw (writable : ∀ p ∈ m.entries, p.Writable) :
    Property.ofRaw m.toRaw = m.entries := by
  have pieces : m.toRaw.toList =
      [','].intercalate (m.entries.map fun p => p.fragment.toList) := by
    rw [toRaw, Text.joinWith, String.toList_intercalate, List.map_map]
    rfl
  rw [Property.ofRaw, pieces]
  by_cases none : m.entries = []
  · rw [none]
    rfl
  · rw [List.splitOn_intercalate, List.filterMap_map]
    · conv_rhs => rw [← List.filterMap_some (l := m.entries)]
      exact List.filterMap_congr fun p member => (writable p member).ofFragment?
    · intro piece isPiece
      obtain ⟨p, member, rfl⟩ := List.mem_map.1 isPiece
      exact (writable p member).comma_notMem_fragment
    · simpa using none

theorem resolve_toRaw_of_writable (writable : ∀ p ∈ m.entries, p.Writable) :
    resolve (some m.toRaw) = m := by
  rw [resolve_some, ofRaw_toRaw writable, ofList_entries]

/-- A key is read with a value that an entry has. -/
theorem mem_of_get? {key value : String} (found : m.get? key = some value) :
    ⟨key, value⟩ ∈ m.entries := by
  obtain ⟨p, isFirst, rfl⟩ := Option.map_eq_some_iff.1 found
  have same : p.key = key := by simpa using List.find?_some isFirst
  subst same
  exact List.mem_of_find?_eq_some isFirst

/-- A map survives being written and read exactly when all its properties are writable; reading
settles after once; and the properties that some raw text configures are the writable ones, so a
member whose key cannot be written is not configured by any. -/
theorem resolve_toRaw_iff :
    (∀ m : PropertyMap, resolve (some m.toRaw) = m ↔ ∀ p ∈ m.entries, p.Writable) ∧
    (∀ raw, ∀ p ∈ (resolve raw).entries, p.Writable) ∧
    (∀ raw, resolve (some (resolve raw).toRaw) = resolve raw) ∧
    (∀ key value, (∃ raw, (resolve (some raw)).get? key = some value) ↔
      Property.IsKey key ∧ Property.IsValue value) ∧
    ∀ (model : Model) raw, ¬ Property.IsKey model.key → model.value? (resolve raw) = none := by
  have configurable : ∀ {raw key value}, (resolve raw).get? key = some value →
      Property.IsKey key ∧ Property.IsValue value := by
    intro raw key value found
    obtain ⟨isKey, isValue⟩ := writable_of_mem_resolve (mem_of_get? found)
    exact ⟨isKey, isValue⟩
  refine ⟨fun m => ⟨fun same p member => ?_, resolve_toRaw_of_writable⟩,
    fun raw p => writable_of_mem_resolve,
    fun raw => resolve_toRaw_of_writable fun p => writable_of_mem_resolve,
    fun key value => ⟨fun ⟨raw, found⟩ => configurable found, fun ⟨isKey, isValue⟩ => ?_⟩,
    fun model raw unwritable => ?_⟩
  · rw [← same] at member
    exact writable_of_mem_resolve member
  · let single : PropertyMap := empty.insert ⟨key, value⟩
    have writable : ∀ p ∈ single.entries, p.Writable := by
      intro p member
      rw [List.mem_singleton.1 member]
      exact ⟨isKey, isValue⟩
    refine ⟨single.toRaw, ?_⟩
    rw [resolve_toRaw_of_writable writable]
    simp [single, get?, insert, empty, Property.insertInto]
  · rw [Option.eq_none_iff_forall_ne_some]
    exact fun value found => unwritable (configurable found).1

/-- Two maps with one raw text, which is read as the one whose key has no equals sign. -/
theorem equals_sign_lost_from_key :
    let lost := empty.insert ⟨"a=b", "c"⟩
    let kept := empty.insert ⟨"a", "b=c"⟩
    lost.toRaw = kept.toRaw ∧ resolve (some kept.toRaw) = kept ∧
      resolve (some lost.toRaw) ≠ lost := by
  intro lost kept
  have writable : ∀ p ∈ kept.entries, p.Writable := by
    intro p member
    rw [List.mem_singleton.1 member]
    exact ⟨⟨by decide, by decide, by decide, by decide⟩, by decide, by decide⟩
  refine ⟨by decide, (resolve_toRaw_iff.1 kept).2 writable, fun same => ?_⟩
  have isKey := ((resolve_toRaw_iff.1 lost).1 same ⟨"a=b", "c"⟩ List.mem_cons_self).key
  exact isKey.noEquals (by decide)

end PropertyMap

end BuildConstants
