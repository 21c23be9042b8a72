import BuildConstants.Proofs.Property.Lookup

/-!
# What a raw text configures

A raw text gives a key the value that its last fragment with the key gives it, and configures
nothing else. Raw texts that are joined by commas are laid over each other one after the other, so
the order of fragments with different keys, values that a later fragment replaces, fragments that
give no key a value and blanks make no difference: `PropertyMap.resolve_readsLatest`.
-/

namespace BuildConstants

/-- A raw text is its fragments, joined by commas. -/
theorem Text.joinWith_parts (raw : String) : Text.joinWith "," (Text.parts ',' raw) = raw := by
  rw [Text.joinWith, Text.parts, ← String.toList_inj, String.toList_intercalate, List.map_map]
  have letters : (String.toList ∘ String.ofList) = id := funext fun _ => String.toList_ofList
  rw [letters, List.map_id]
  exact List.intercalate_splitOn ','

namespace Property

/-- The last fragment of the raw text with the key gives it the value. -/
def Settles (raw key value : String) : Prop :=
  ∃ front fragment back, Text.parts ',' raw = front ++ fragment :: back ∧
    Assigns fragment key value ∧ ∀ later ∈ back, ∀ other, ¬ Assigns later key other

variable {fragment key value raw : String}

/-- The fragment is read as a property with the key. -/
theorem hasKey_iff :
    (ofFragment? fragment.toList).any (fun p => p.key = key) ↔
      key ≠ "" ∧ ∃ value, Assigns fragment key value := by
  rw [Option.any_eq_true]
  constructor
  · rintro ⟨⟨_, value⟩, read, same⟩
    obtain rfl := of_decide_eq_true same
    obtain ⟨named, assigns⟩ := ofFragment?_eq_some_iff.1 read
    exact ⟨named, value, assigns⟩
  · rintro ⟨named, value, assigns⟩
    exact ⟨_, ofFragment?_eq_some_iff.2 ⟨named, assigns⟩, decide_eq_true rfl⟩

end Property

namespace PropertyMap

open Property (Assigns Settles)

variable {key value raw fragment : String}

/-- A raw text gives a key the value of its last fragment with the key. -/
theorem get?_resolve_eq_some_iff :
    (resolve (some raw)).get? key = some value ↔ key ≠ "" ∧ Settles raw key value := by
  rw [resolve_some, get?_ofList, Property.ofRaw_eq, ← List.filterMap_reverse, List.find?_filterMap]
  constructor
  · intro found
    obtain ⟨⟨_, _⟩, isLast, rfl⟩ := Option.map_eq_some_iff.1 found
    obtain ⟨fragment, isFragment, read⟩ := Option.bind_eq_some_iff.1 isLast
    obtain ⟨front, back, whole, hasKey, later⟩ := find?_reverse_eq_some_iff.1 isFragment
    rw [read] at hasKey
    obtain rfl := of_decide_eq_true hasKey
    obtain ⟨named, assigns⟩ := Property.ofFragment?_eq_some_iff.1 read
    refine ⟨named, front, fragment, back, whole, assigns, fun other member value assigns => ?_⟩
    exact later other member (Property.hasKey_iff.2 ⟨named, value, assigns⟩)
  · rintro ⟨named, front, fragment, back, whole, assigns, later⟩
    have isFragment := find?_reverse_eq_some_iff.2
      ⟨front, back, whole, Property.hasKey_iff.2 ⟨named, value, assigns⟩,
        fun other member hasKey => (Property.hasKey_iff.1 hasKey).2.elim (later other member)⟩
    rw [isFragment, Option.bind_some, Property.ofFragment?_eq_some_iff.2 ⟨named, assigns⟩]
    rfl

/-- The part of a raw text that is behind a comma is laid over the part before it. -/
theorem resolve_append (raw other : String) :
    resolve (some (raw ++ "," ++ other)) =
      (resolve (some raw)).override (resolve (some other)) := by
  refine ext_get? fun key => ?_
  rw [get?_override, resolve_some, resolve_some, resolve_some, Property.ofRaw_append, get?_ofList,
    get?_ofList, get?_ofList, List.reverse_append, List.find?_append, Option.map_or]

/-- What several raw texts configure together, when they are joined by commas. -/
def resolveAll (texts : List String) : PropertyMap :=
  resolve (some (Text.joinWith "," texts))

variable {front back texts others : List String} {text repeated : String}

theorem resolveAll_nil : resolveAll [] = empty := rfl

theorem resolveAll_cons :
    resolveAll (text :: texts) = (resolve (some text)).override (resolveAll texts) := by
  cases texts with
  | nil =>
      rw [resolveAll_nil, resolveAll, Text.joinWith, String.intercalate_singleton]
      rfl
  | cons next others =>
      rw [resolveAll, Text.joinWith, String.intercalate_cons_cons, resolve_append]
      rfl

/-- The texts behind are laid over those in front. -/
theorem resolveAll_append :
    resolveAll (front ++ back) = (resolveAll front).override (resolveAll back) := by
  induction front with
  | nil =>
      refine ext_get? fun key => ?_
      rw [List.nil_append, get?_override, resolveAll_nil, get?_empty, Option.or_none]
  | cons text rest ih =>
      refine ext_get? fun key => ?_
      simp only [List.cons_append, resolveAll_cons, ih, get?_override, Option.or_assoc]

/-- The texts that configure a key determine its value. -/
theorem get?_resolveAll_filter (texts : List String) (key : String) :
    (resolveAll (texts.filter fun text => ((resolve (some text)).get? key).isSome)).get? key =
      (resolveAll texts).get? key := by
  induction texts with
  | nil => rfl
  | cons text rest ih =>
      rw [List.filter_cons, resolveAll_cons, get?_override, ← ih]
      cases set : (resolve (some text)).get? key with
      | none => simp
      | some value => simp [resolveAll_cons, set]

/-- Texts can be rearranged as long as those that configure one key keep their order. -/
theorem resolveAll_rearranged
    (same : ∀ key, (texts.filter fun text => ((resolve (some text)).get? key).isSome) =
      others.filter fun text => ((resolve (some text)).get? key).isSome) :
    resolveAll texts = resolveAll others := by
  refine ext_get? fun key => ?_
  rw [← get?_resolveAll_filter texts, same, get?_resolveAll_filter]

/-- A text all of whose keys are configured behind it makes no difference. -/
theorem resolveAll_replaced
    (replaced : ∀ key,
      (resolve (some repeated)).get? key ≠ none → (resolveAll back).get? key ≠ none) :
    resolveAll (front ++ repeated :: back) = resolveAll (front ++ back) := by
  refine ext_get? fun key => ?_
  simp only [resolveAll_append, resolveAll_cons, get?_override]
  cases later : (resolveAll back).get? key with
  | some value => rfl
  | none =>
      have unset : (resolve (some repeated)).get? key = none :=
        Decidable.byContradiction fun set => replaced key set later
      simp [unset]

/-! ### Fragments -/

/-- A fragment configures what it gives. -/
theorem get?_resolve_fragment (whole : ',' ∉ fragment.toList) :
    (resolve (some fragment)).get? key = some value ↔ key ≠ "" ∧ Assigns fragment key value := by
  rw [get?_resolve_eq_some_iff, Settles, Text.parts_of_notMem whole]
  refine and_congr_right fun _ => ⟨?_, fun assigns => ⟨[], fragment, [], rfl, assigns, by simp⟩⟩
  rintro ⟨front, last, back, only, assigns, -⟩
  have isFragment : last ∈ [fragment] := only ▸ by simp
  rwa [← List.mem_singleton.1 isFragment]

/-- A fragment that gives no key a value configures nothing. -/
theorem get?_resolve_malformed (whole : ',' ∉ fragment.toList)
    (malformed : ∀ key value, Assigns fragment key value → key = "") :
    (resolve (some fragment)).get? key = none := by
  rw [Option.eq_none_iff_forall_ne_some]
  intro value found
  obtain ⟨named, assigns⟩ := (get?_resolve_fragment whole).1 found
  exact named (malformed key value assigns)

/-- Blanks around the key and the value of a fragment are not read. -/
theorem resolve_padded {paddedKey paddedValue : String} (wholeKey : ',' ∉ key.toList)
    (noEquals : '=' ∉ key.toList) (wholeValue : ',' ∉ value.toList)
    (padsKey : Text.Pads key paddedKey) (padsValue : Text.Pads value paddedValue) :
    resolve (some (paddedKey ++ "=" ++ paddedValue)) = resolve (some (key ++ "=" ++ value)) := by
  have isWhole : ∀ {before after : String}, ',' ∉ before.toList → ',' ∉ after.toList →
      ',' ∉ (before ++ "=" ++ after).toList := by
    intro before after wholeBefore wholeAfter
    simp [wholeBefore, wholeAfter]
  have isPadded := isWhole (padsKey.notMem wholeKey (by decide))
    (padsValue.notMem wholeValue (by decide))
  refine ext_get? fun name => Option.ext fun text => ?_
  rw [get?_resolve_fragment isPadded, get?_resolve_fragment (isWhole wholeKey wholeValue),
    Property.assigns_append_iff (padsKey.notMem noEquals (by decide)),
    Property.assigns_append_iff noEquals, padsKey.trim, padsValue.trim]

/-! ### The map of a raw text -/

/-- The last fragment with a key counts, whatever else a raw text is made of. -/
structure ReadsLatest (read : Option String → PropertyMap) : Prop where
  /-- The configured keys and their values are exactly those of the fragments that come last. -/
  latest : ∀ raw key value,
    (read (some raw)).get? key = some value ↔ key ≠ "" ∧ Settles raw key value
  absent : read none = empty
  /-- What is behind a comma is laid over what is before it. -/
  overridden : ∀ raw other : String,
    read (some (raw ++ "," ++ other)) = (read (some raw)).override (read (some other))
  /-- The order counts only among texts that configure one key. -/
  rearranged : ∀ texts others : List String,
    (∀ key, (texts.filter fun text => ((read (some text)).get? key).isSome) =
      others.filter fun text => ((read (some text)).get? key).isSome) →
    read (some (Text.joinWith "," texts)) = read (some (Text.joinWith "," others))
  /-- A text all of whose keys are configured behind it makes no difference. -/
  replaced : ∀ (front : List String) (repeated : String) (back : List String),
    (∀ key, (read (some repeated)).get? key ≠ none →
      (read (some (Text.joinWith "," back))).get? key ≠ none) →
    read (some (Text.joinWith "," (front ++ repeated :: back))) =
      read (some (Text.joinWith "," (front ++ back)))
  /-- A fragment without an equals sign or without a key makes no difference. -/
  malformed : ∀ (front : List String) (fragment : String) (back : List String),
    ',' ∉ fragment.toList → (∀ key value, Assigns fragment key value → key = "") →
    read (some (Text.joinWith "," (front ++ fragment :: back))) =
      read (some (Text.joinWith "," (front ++ back)))
  /-- Blanks around a key and around its value make no difference. -/
  padded : ∀ (front : List String) (key value paddedKey paddedValue : String) (back : List String),
    ',' ∉ key.toList → '=' ∉ key.toList → ',' ∉ value.toList →
    Text.Pads key paddedKey → Text.Pads value paddedValue →
    read (some (Text.joinWith "," (front ++ (paddedKey ++ "=" ++ paddedValue) :: back))) =
      read (some (Text.joinWith "," (front ++ (key ++ "=" ++ value) :: back)))

/-- Every raw text is cut into its fragments and read so that the last fragment with a key counts;
of two maps that are laid over each other, the upper one counts where it has the key. -/
theorem resolve_readsLatest :
    ReadsLatest resolve ∧
    (∀ raw, Text.joinWith "," (Text.parts ',' raw) = raw ∧
      ∀ fragment ∈ Text.parts ',' raw, ',' ∉ fragment.toList) ∧
    ∀ (m other : PropertyMap) key,
      (m.override other).get? key = (other.get? key).or (m.get? key) := by
  refine ⟨?_, fun raw => ⟨Text.joinWith_parts raw, fun _ => Text.notMem_part⟩, get?_override⟩
  refine
    { latest := fun _ _ _ => get?_resolve_eq_some_iff
      absent := rfl
      overridden := resolve_append
      rearranged := fun _ _ => resolveAll_rearranged
      replaced := fun _ _ _ => resolveAll_replaced
      malformed := ?_
      padded := ?_ }
  · intro front fragment back whole malformed
    refine resolveAll_replaced fun key set => ?_
    exact absurd (get?_resolve_malformed whole malformed) set
  · intro front key value paddedKey paddedValue back wholeKey noEquals wholeValue padsKey padsValue
    have same := resolve_padded wholeKey noEquals wholeValue padsKey padsValue
    show resolveAll _ = resolveAll _
    rw [resolveAll_append, resolveAll_append, resolveAll_cons, resolveAll_cons, same]

/-- A value with an equals sign replaces another one, among fragments that are not read and with
blanks around it. -/
theorem latest_among_malformed :
    resolve (some "Flavor=sweet,orphan,\tFlavor = a=b ,=c") = resolve (some "Flavor=a=b") ∧
      (resolve (some "Flavor=a=b")).get? "Flavor" = some "a=b" := by
  obtain ⟨reads, -⟩ := resolve_readsLatest
  have orphan : ∀ key value, Assigns "orphan" key value → key = "" := by
    rintro key value ⟨before, after, same, -⟩
    have noEquals : '=' ∉ "orphan".toList := by decide
    rw [same] at noEquals
    simp at noEquals
  have nameless : ∀ key value, Assigns "=c" key value → key = "" := by
    intro key value assigns
    have cut : Assigns ("" ++ "=" ++ "c") key value := assigns
    exact ((Property.assigns_append_iff (by decide)).1 cut).1.symm
  have replaced : ∀ key, (resolve (some "Flavor=sweet")).get? key ≠ none →
      (resolve (some (Text.joinWith "," ["\tFlavor = a=b "]))).get? key ≠ none := by
    intro key set
    have sweet : resolve (some "Flavor=sweet") = empty.insert ⟨"Flavor", "sweet"⟩ := by
      decide +kernel
    rw [sweet, get?_insert] at set
    split at set
    next isFlavor =>
        rw [← isFlavor]
        decide +kernel
    next => exact absurd (get?_empty key) set
  have tab : Text.isBlank '\t' := by decide
  have space : Text.isBlank ' ' := by decide
  have paddedKey : Text.Pads "Flavor" "\tFlavor " := ⟨"\t", " ", by decide, by simp [tab, space]⟩
  have paddedValue : Text.Pads "a=b" " a=b " := ⟨" ", " ", by decide, by simp [space]⟩
  constructor
  · calc resolve (some "Flavor=sweet,orphan,\tFlavor = a=b ,=c")
      _ = resolve (some (Text.joinWith "," ["Flavor=sweet", "\tFlavor = a=b ", "=c"])) :=
          reads.malformed ["Flavor=sweet"] "orphan" ["\tFlavor = a=b ", "=c"] (by decide) orphan
      _ = resolve (some (Text.joinWith "," ["Flavor=sweet", "\tFlavor = a=b "])) :=
          reads.malformed ["Flavor=sweet", "\tFlavor = a=b "] "=c" [] (by decide) nameless
      _ = resolve (some (Text.joinWith "," ["\tFlavor = a=b "])) :=
          reads.replaced [] "Flavor=sweet" ["\tFlavor = a=b "] replaced
      _ = resolve (some "Flavor=a=b") :=
          reads.padded [] "Flavor" "a=b" "\tFlavor " " a=b " [] (by decide) (by decide) (by decide)
            paddedKey paddedValue
  · exact (reads.latest _ _ _).2 ⟨by decide, [], "Flavor=a=b", [], by decide,
      ⟨"Flavor", "a=b", by decide, by decide, by decide, by decide⟩, by simp⟩

end PropertyMap

end BuildConstants
