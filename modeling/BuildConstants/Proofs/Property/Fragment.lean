import BuildConstants.Proofs.Path.Parts
import BuildConstants.Proofs.Text.Blank
import BuildConstants.Proofs.Text.Mark
import BuildConstants.Property

/-!
# Reading fragments

A fragment gives a key a value when the two stand before and behind its first equals sign:
`Property.Assigns`. Such a key and such a value can be written in a fragment, so what is read of a
raw text is always `Property.Writable`, and a writable property is read back from its own fragment.
-/

namespace BuildConstants

namespace Property

/-- The text can be a key of a raw text. -/
structure IsKey (text : String) : Prop where
  notEmpty : text ≠ ""
  noComma : ',' ∉ text.toList
  noEquals : '=' ∉ text.toList
  trimmed : Text.trim text = text

/-- The text can be a value of a raw text. -/
structure IsValue (text : String) : Prop where
  noComma : ',' ∉ text.toList
  trimmed : Text.trim text = text

/-- The fragment gives the key the value: they are what stands before and behind its first equals
sign, without the blanks around them. -/
def Assigns (fragment key value : String) : Prop :=
  ∃ before after : String, fragment = before ++ "=" ++ after ∧ '=' ∉ before.toList ∧
    Text.trim before = key ∧ Text.trim after = value

/-- The property can be configured. -/
structure Writable (p : Property) : Prop where
  key : IsKey p.key
  value : IsValue p.value

variable {p : Property} {fragment key value raw : String}

theorem toList_assignment (before after : String) :
    (before ++ "=" ++ after).toList = before.toList ++ '=' :: after.toList := by
  rw [String.toList_append, String.toList_append, List.append_assoc]
  rfl

/-- What a fragment gives is determined by its first equals sign. -/
theorem assigns_append_iff {before after : String} (noEquals : '=' ∉ before.toList) :
    Assigns (before ++ "=" ++ after) key value ↔
      Text.trim before = key ∧ Text.trim after = value := by
  refine ⟨?_, fun ⟨isKey, isValue⟩ => ⟨before, after, rfl, noEquals, isKey, isValue⟩⟩
  rintro ⟨front, back, same, noOther, rfl, rfl⟩
  rw [← String.toList_inj, toList_assignment, toList_assignment] at same
  obtain ⟨fronts, backs⟩ := Text.append_cons_inj noEquals noOther same
  rw [String.toList_inj.1 fronts, String.toList_inj.1 backs]
  exact ⟨rfl, rfl⟩

/-- A fragment is read as the property that it gives, unless its key is empty. -/
theorem ofFragment?_eq_some_iff :
    ofFragment? fragment.toList = some ⟨key, value⟩ ↔ key ≠ "" ∧ Assigns fragment key value := by
  rw [ofFragment?]
  constructor
  · intro read
    split at read
    · cases read
    next before after cut =>
        obtain ⟨whole, noEquals⟩ := Text.splitFirst_eq_some_iff.1 cut
        dsimp only at read
        split at read
        · cases read
        next named =>
            cases read
            refine ⟨by simpa [← String.toList_inj] using named, .ofList before, .ofList after, ?_⟩
            rw [← String.toList_inj, toList_assignment, Text.trim, Text.trim]
            simp only [String.toList_ofList, and_true]
            exact ⟨whole, noEquals⟩
  · rintro ⟨named, before, after, rfl, noEquals, rfl, rfl⟩
    have cut := Text.splitFirst_eq_some_iff.2 ⟨toList_assignment before after, noEquals⟩
    have isNamed : (Text.trimChars before.toList).isEmpty = false := by
      simpa [← String.toList_inj, Text.trim] using named
    rw [cut]
    simp only [isNamed, Bool.false_eq_true, if_false]
    rfl

theorem toList_fragment (p : Property) :
    p.fragment.toList = p.key.toList ++ '=' :: p.value.toList :=
  toList_assignment p.key p.value

/-- What is read of a fragment is writable. -/
theorem writable_of_ofFragment? (whole : ',' ∉ fragment.toList)
    (read : ofFragment? fragment.toList = some p) : p.Writable := by
  obtain ⟨key, value⟩ := p
  obtain ⟨named, before, after, rfl, noEquals, rfl, rfl⟩ := ofFragment?_eq_some_iff.1 read
  rw [toList_assignment, List.mem_append, List.mem_cons, not_or, not_or] at whole
  refine ⟨⟨named, mt Text.mem_of_mem_trim whole.1, mt Text.mem_of_mem_trim noEquals,
    Text.trim_trim before⟩, mt Text.mem_of_mem_trim whole.2.2, Text.trim_trim after⟩

theorem ofRaw_eq (raw : String) :
    ofRaw raw = (Text.parts ',' raw).filterMap fun fragment => ofFragment? fragment.toList := by
  rw [ofRaw, Text.parts, List.filterMap_map]
  refine List.filterMap_congr fun piece _ => ?_
  rw [Function.comp_apply, String.toList_ofList]

theorem ofRaw_append (raw other : String) :
    ofRaw (raw ++ "," ++ other) = ofRaw raw ++ ofRaw other := by
  have cut := Text.parts_append ',' raw other
  rw [ofRaw_eq, ofRaw_eq, ofRaw_eq, ← List.filterMap_append, ← cut]
  rfl

/-- What is read of a raw text is writable. -/
theorem writable_of_mem_ofRaw (member : p ∈ ofRaw raw) : p.Writable := by
  rw [ofRaw_eq] at member
  obtain ⟨fragment, isFragment, read⟩ := List.mem_filterMap.1 member
  exact writable_of_ofFragment? (Text.notMem_part isFragment) read

/-- A writable property is read back from its fragment. -/
theorem Writable.ofFragment? (writable : p.Writable) :
    ofFragment? p.fragment.toList = some p := by
  obtain ⟨⟨named, -, noEquals, keyTrimmed⟩, -, valueTrimmed⟩ := writable
  exact ofFragment?_eq_some_iff.2 ⟨named, p.key, p.value, rfl, noEquals, keyTrimmed, valueTrimmed⟩

theorem Writable.comma_notMem_fragment (writable : p.Writable) : ',' ∉ p.fragment.toList := by
  rw [toList_fragment, List.mem_append, List.mem_cons]
  rintro (inKey | isEquals | inValue)
  · exact writable.key.noComma inKey
  · cases isEquals
  · exact writable.value.noComma inValue

end Property

namespace PropertyMap

/-- A void text has no fragments that are read, so it needs no rule of its own. -/
theorem resolve_some (raw : String) : resolve (some raw) = ofList (Property.ofRaw raw) := by
  unfold resolve
  dsimp only
  split
  next void =>
      have blank : ∀ c ∈ raw.toList, Text.isBlank c := by
        rw [isVoid, Option.all_some, List.isEmpty_iff] at void
        exact Text.trimChars_eq_nil_iff.1 void
      have unread : Property.ofRaw raw = [] := by
        refine List.filterMap_eq_nil_iff.2 fun piece isPiece => ?_
        have noEquals : '=' ∉ piece := by
          intro within
          have isBlank := blank '=' (Text.mem_of_mem_splitOn isPiece within).1
          revert isBlank
          decide
        rw [Property.ofFragment?, Text.splitFirst_eq_none noEquals]
      rw [unread]
      rfl
  next => rfl

end PropertyMap

end BuildConstants
