import BuildConstants.Document.Decode
import BuildConstants.Proofs.Outcome
import BuildConstants.Proofs.Text.Digits

/-!
# What documents stand for

Relations between a document and the value that it stands for where a text, a truth value, a count,
an optional value or a variant is asked for. Each decoder gives exactly the values of its relation,
and nothing to a document without one.
-/

namespace BuildConstants.Document

variable {α : Type} {doc : Document}

/-- The decoder gives a document the values that it stands for, and no others. -/
def Decides (read : Decoder α) (Is : Document → α → Prop) : Prop :=
  ∀ doc value, read doc = .ok value ↔ Is doc value

/-- What a decoder decides stands for one value at most. -/
theorem Decides.unique {read : Decoder α} {Is : Document → α → Prop} (decides : Decides read Is)
    {first second : α} (isFirst : Is doc first) (isSecond : Is doc second) : first = second :=
  Except.ok.inj (((decides doc first).2 isFirst).symm.trans ((decides doc second).2 isSecond))

/-! ## Scalars -/

/-- A scalar of any style. -/
inductive IsScalar : Document → String → Prop where
  | text {value} : IsScalar (.text value) value
  | plain {value} : IsScalar (.plain value) value
  | block {value} : IsScalar (.block value) value

/-- A text is a scalar of any style, and a tag before it does not matter. -/
inductive IsText : Document → String → Prop where
  | bare {doc value} (isScalar : IsScalar doc value) : IsText doc value
  | tagged {tag doc value} (isScalar : IsScalar doc value) : IsText (.tagged tag doc) value

theorem isText_of_untagged {value : String} (isScalar : IsScalar doc.untagged value) :
    IsText doc value := by
  cases doc with
  | tagged tag inner => exact .tagged isScalar
  | _ => exact .bare isScalar

theorem decides_asText : Decides asText IsText := by
  intro doc value
  constructor
  · intro read
    refine isText_of_untagged ?_
    rw [asText] at read
    split at read
    next same => cases read; rw [same]; exact .text
    next same => cases read; rw [same]; exact .plain
    next same => cases read; rw [same]; exact .block
    next => cases read
  · rintro (isScalar | isScalar) <;> cases isScalar <;> rfl

/-- The text of a scalar without quotes. A block counts as one under the tag of the kind that is
asked for. -/
inductive IsBare (tag : String) : Document → String → Prop where
  | plain {word} : IsBare tag (.plain word) word
  | tagged {other word} : IsBare tag (.tagged other (.plain word)) word
  | block {word} : IsBare tag (.tagged tag (.block word)) word

theorem unquoted?_eq_some_iff {tag word : String} :
    doc.unquoted? tag = some word ↔ IsBare tag doc word := by
  constructor
  · intro found
    unfold unquoted? at found
    split at found
    next => cases found; exact .plain
    next => cases found; exact .tagged
    next =>
        split at found
        next same => cases found; subst same; exact .block
        next => cases found
    next => cases found
  · rintro (_ | _ | _)
    · rfl
    · rfl
    · exact if_pos rfl

/-! ## Truth values -/

/-- The words for a truth value. -/
def boolWords : Bool → List String
  | true => ["true", "True", "TRUE"]
  | false => ["false", "False", "FALSE"]

theorem plainBool?_eq_some_iff {word : String} {value : Bool} :
    plainBool? word = some value ↔ word ∈ boolWords value := by
  have apart : ∀ word ∈ boolWords false, word ∉ boolWords true := by
    decide
  cases value <;> grind [plainBool?, boolWords]

/-- A truth value is written as such, or as one of its words without quotes. -/
inductive IsTruth : Document → Bool → Prop where
  | bool {value} : IsTruth (.bool value) value
  | word {doc word value} (bare : IsBare "tag:yaml.org,2002:bool" doc word)
      (means : word ∈ boolWords value) : IsTruth doc value

theorem decides_asBool : Decides asBool IsTruth := by
  intro doc value
  constructor
  · intro read
    unfold asBool at read
    split at read
    next => cases read; exact .bool
    next =>
        split at read
        next found =>
            cases read
            obtain ⟨word, bare, means⟩ := Option.bind_eq_some_iff.1 found
            exact .word (unquoted?_eq_some_iff.1 bare) (plainBool?_eq_some_iff.1 means)
        next => cases read
  · rintro (_ | ⟨bare, means⟩)
    · rfl
    · unfold asBool
      split
      next => cases bare
      next =>
          rw [boolTag, unquoted?_eq_some_iff.2 bare, Option.bind_some,
            plainBool?_eq_some_iff.2 means]

/-! ## Counts -/

/-- The marks of the bases other than ten. -/
def baseMarks : List (Char × Nat) :=
  [('x', 16), ('o', 8), ('b', 2)]

theorem mem_baseMarks_iff {mark : Char} {base : Nat} :
    (mark, base) ∈ baseMarks ↔
      mark = 'x' ∧ base = 16 ∨ mark = 'o' ∧ base = 8 ∨ mark = 'b' ∧ base = 2 := by
  simp [baseMarks]

/-- A numeral is in base ten, or in another base behind a zero and the mark of this base. In base
ten its first digit is a zero only if there is no other. -/
inductive IsNumeral : List Char → Nat → Prop where
  | decimal {digits n} (notEmpty : digits ≠ []) (stands : Text.StandsFor 10 digits n)
      (short : ∀ rest, digits = '0' :: rest → rest = []) : IsNumeral digits n
  | marked {mark base digits n} (isMark : (mark, base) ∈ baseMarks) (notEmpty : digits ≠ [])
      (stands : Text.StandsFor base digits n) : IsNumeral ('0' :: mark :: digits) n

theorem ofSomeDigits?_eq_some_iff {base n : Nat} {digits : List Char} (small : base ≤ 16) :
    ofSomeDigits? base digits = some n ↔ digits ≠ [] ∧ Text.StandsFor base digits n := by
  rw [ofSomeDigits?, ← Text.ofDigits?_eq_some_iff small]
  cases digits <;> simp

/-- Digits of base ten have a needless zero when another digit follows a zero at their front. -/
theorem hasLeadingZero_iff {n : Nat} {digits : List Char} (stands : Text.StandsFor 10 digits n) :
    hasLeadingZero digits = false ↔ ∀ rest, digits = '0' :: rest → rest = [] := by
  unfold hasLeadingZero
  split
  next c rest =>
      have digitsOnly : ('0' :: c :: rest).all Char.isDigit = true :=
        List.all_eq_true.2 fun c member =>
          (stands.exists_isDigit member).elim fun _ isDigit => isDigit.isDigit
      simp [digitsOnly]
  next other =>
      refine iff_of_true rfl fun rest same => ?_
      cases rest with
      | nil => rfl
      | cons c rest => exact absurd same (other c rest)

theorem isNumeral_marked_iff {mark : Char} {base n : Nat} {digits : List Char}
    (isMark : (mark, base) ∈ baseMarks) :
    IsNumeral ('0' :: mark :: digits) n ↔ ofSomeDigits? base digits = some n := by
  have known := mem_baseMarks_iff.1 isMark
  have small : base ≤ 16 := by omega
  rw [ofSomeDigits?_eq_some_iff small]
  refine ⟨fun isNumeral => ?_, fun ⟨notEmpty, stands⟩ => .marked isMark notEmpty stands⟩
  cases isNumeral with
  | decimal _ _ short => cases short _ rfl
  | @marked _ other _ _ isOther notEmpty stands =>
      have knownOther := mem_baseMarks_iff.1 isOther
      have same : other = base := by grind
      exact same ▸ ⟨notEmpty, stands⟩

theorem isNumeral_of_unmarked {n : Nat} {digits : List Char}
    (unmarked : ∀ mark base, (mark, base) ∈ baseMarks → ∀ rest, digits ≠ '0' :: mark :: rest) :
    IsNumeral digits n ↔
      hasLeadingZero digits = false ∧ ofSomeDigits? 10 digits = some n := by
  rw [ofSomeDigits?_eq_some_iff (by decide)]
  constructor
  · intro isNumeral
    cases isNumeral with
    | decimal notEmpty stands short =>
        exact ⟨(hasLeadingZero_iff stands).2 short, notEmpty, stands⟩
    | marked isMark => exact absurd rfl (unmarked _ _ isMark _)
  · rintro ⟨short, notEmpty, stands⟩
    exact .decimal notEmpty stands ((hasLeadingZero_iff stands).1 short)

/-- No numeral starts with a plus sign. -/
theorem IsNumeral.unsigned_eq {n : Nat} {digits : List Char} (isNumeral : IsNumeral digits n) :
    unsigned digits = digits := by
  unfold unsigned
  split
  next rest =>
      cases isNumeral with
      | decimal _ stands _ =>
          obtain ⟨_, isDigit⟩ := stands.exists_isDigit List.mem_cons_self
          cases isDigit.isDigit
  next => rfl

/-- A numeral is read with or without a plus sign before it. -/
theorem plainCount?_eq_some_iff {word : String} {n : Nat} :
    plainCount? word = some n ↔
      ∃ digits, (word.toList = digits ∨ word.toList = '+' :: digits) ∧ IsNumeral digits n := by
  have read : plainCount? word = some n ↔ IsNumeral (unsigned word.toList) n := by
    unfold plainCount?
    split
    next same => rw [same, isNumeral_marked_iff (by decide : ('x', 16) ∈ baseMarks)]
    next same => rw [same, isNumeral_marked_iff (by decide : ('o', 8) ∈ baseMarks)]
    next same => rw [same, isNumeral_marked_iff (by decide : ('b', 2) ∈ baseMarks)]
    next notHexadecimal notOctal notBinary =>
        rw [isNumeral_of_unmarked]
        · cases hasLeadingZero (unsigned word.toList) <;> simp
        · intro mark base isMark rest same
          rcases mem_baseMarks_iff.1 isMark with ⟨rfl, -⟩ | ⟨rfl, -⟩ | ⟨rfl, -⟩
          · exact notHexadecimal _ same
          · exact notOctal _ same
          · exact notBinary _ same
  rw [read]
  constructor
  · intro isNumeral
    refine ⟨_, ?_, isNumeral⟩
    unfold unsigned
    split
    next same => exact .inr same
    next => exact .inl rfl
  · rintro ⟨digits, same | same, isNumeral⟩
    · rwa [same, isNumeral.unsigned_eq]
    · rwa [same]

/-- A count is an integer in its range, or a numeral for one without quotes; a plus sign may stand
before it. -/
inductive IsCount : Document → UInt64 → Prop where
  | integer {n : UInt64} : IsCount (.integer n.toNat) n
  | numeral {doc word digits} {n : UInt64} (bare : IsBare "tag:yaml.org,2002:int" doc word)
      (signed : word.toList = digits ∨ word.toList = '+' :: digits)
      (isNumeral : IsNumeral digits n.toNat) : IsCount doc n

theorem decides_asCount : Decides asCount IsCount := by
  intro doc n
  constructor
  · intro read
    unfold asCount at read
    split at read
    next value =>
        split at read
        next inRange =>
            cases read
            obtain ⟨number, rfl⟩ := Int.eq_ofNat_of_zero_le inRange.1
            have small : number < UInt64.size := Int.ofNat_lt.1 inRange.2
            have same : number = (UInt64.ofNat number).toNat :=
              (UInt64.toNat_ofNat_of_lt' small).symm
            rw [Int.toNat_natCast]
            conv in Document.integer _ => rw [same]
            exact .integer
        next => cases read
    next =>
        split at read
        next value found =>
            split at read
            next small =>
                cases read
                obtain ⟨word, bare, means⟩ := Option.bind_eq_some_iff.1 found
                obtain ⟨digits, signed, isNumeral⟩ := plainCount?_eq_some_iff.1 means
                refine .numeral (unquoted?_eq_some_iff.1 bare) signed ?_
                rwa [UInt64.toNat_ofNat_of_lt' small]
            next => cases read
        next => cases read
  · rintro (_ | ⟨bare, signed, isNumeral⟩)
    · have inRange : (0 : Int) ≤ n.toNat ∧ (n.toNat : Int) < countLimit :=
        ⟨Int.natCast_nonneg _, Int.ofNat_lt.2 n.toNat_lt⟩
      rw [asCount, if_pos inRange, Int.toNat_natCast, UInt64.ofNat_toNat]
    · unfold asCount
      split
      next => cases bare
      next =>
          have small : n.toNat < countLimit := n.toNat_lt
          rw [intTag, unquoted?_eq_some_iff.2 bare, Option.bind_some,
            plainCount?_eq_some_iff.2 ⟨_, signed, isNumeral⟩]
          dsimp only
          rw [if_pos small, UInt64.ofNat_toNat]

/-! ## Optional values -/

/-- The words for an absent value. -/
def nullWords : List String :=
  ["", "null", "Null", "NULL", "~"]

theorem isPlainNull_iff {word : String} : isPlainNull word ↔ word ∈ nullWords := by
  rw [isPlainNull, decide_eq_true_iff, nullWords]

/-- A value that may be absent: it is absent when the document is null, or one of the words for it
without quotes; and a word under the tag of absent values stands for nothing else. -/
inductive IsOptional (Is : Document → α → Prop) : Document → Option α → Prop where
  | null : IsOptional Is .null none
  | plain {word} (means : word ∈ nullWords) : IsOptional Is (.plain word) none
  | tagged {word} (notEmpty : word ≠ "") (means : word ∈ nullWords) :
      IsOptional Is (.tagged "tag:yaml.org,2002:null" (.plain word)) none
  | present {doc value} (isValue : Is doc value) (notNull : doc ≠ .null)
      (notPlain : ∀ word ∈ nullWords, doc ≠ .plain word)
      (notTagged : ∀ word, doc ≠ .tagged "tag:yaml.org,2002:null" (.plain word)) :
      IsOptional Is doc (some value)

theorem Decides.asOption {read : Decoder α} {Is : Document → α → Prop} (decides : Decides read Is) :
    Decides (asOption read) (IsOptional Is) := by
  intro doc value
  constructor
  · intro found
    unfold Document.asOption at found
    split at found
    next => cases found; exact .null
    next word =>
        split at found
        next means => cases found; exact .plain (isPlainNull_iff.1 means)
        next notNull =>
            obtain ⟨inner, isInner, rfl⟩ := map_eq_ok.1 found
            exact .present ((decides _ _).1 isInner) nofun
              (fun _ means same => by cases same; exact notNull (isPlainNull_iff.2 means)) nofun
    next tag word =>
        split at found
        next isNull =>
            subst isNull
            split at found
            next means =>
                cases found
                rw [Bool.and_eq_true, decide_eq_true_iff] at means
                exact .tagged means.1 (isPlainNull_iff.1 means.2)
            next => cases found
        next notNull =>
            obtain ⟨inner, isInner, rfl⟩ := map_eq_ok.1 found
            exact .present ((decides _ _).1 isInner) nofun nofun
              (fun _ same => by cases same; exact notNull rfl)
    next notNull notPlain notTagged =>
        obtain ⟨inner, isInner, rfl⟩ := map_eq_ok.1 found
        exact .present ((decides _ _).1 isInner) notNull
          (fun word _ same => (notPlain word same).elim)
          (fun word same => notTagged nullTag word same)
  · rintro (_ | means | ⟨notEmpty, means⟩ | ⟨isValue, notNull, notPlain, notTagged⟩)
    · rfl
    · rw [Document.asOption, if_pos (isPlainNull_iff.2 means)]
    · rw [Document.asOption, nullTag, if_pos rfl, if_pos]
      rw [Bool.and_eq_true, decide_eq_true_iff]
      exact ⟨notEmpty, isPlainNull_iff.2 means⟩
    · have read := (decides _ _).2 isValue
      unfold Document.asOption
      split
      next => exact absurd rfl notNull
      next word =>
          have notWord : ¬ isPlainNull word := fun means =>
            notPlain word (isPlainNull_iff.1 means) rfl
          rw [if_neg notWord, read]
          rfl
      next tag word =>
          rw [if_neg fun same => notTagged word (by rw [same, nullTag]), read]
          rfl
      next => rw [read]; rfl

/-! ## Variants -/

/-- The name is one that the value is read from. -/
def Spellings.Names (spellings : Spellings α) (name : String) (value : α) : Prop :=
  ∃ names, (value, names) ∈ spellings ∧ name ∈ names

/-- No two values are read from one name. -/
def Spellings.Distinct (spellings : Spellings α) : Prop :=
  spellings.Pairwise fun first second => ∀ name ∈ first.2, name ∉ second.2

theorem variantNamed_eq_ok_iff {spellings : Spellings α} (distinct : spellings.Distinct)
    {name : String} {value : α} :
    variantNamed spellings name = .ok value ↔ spellings.Names name value := by
  rw [variantNamed]
  constructor
  · intro read
    split at read
    next found =>
        cases read
        exact ⟨_, List.mem_of_find?_eq_some found, by simpa using List.find?_some found⟩
    next => cases read
  · rintro ⟨names, member, isName⟩
    induction spellings with
    | nil => cases member
    | cons first rest ih =>
        obtain ⟨apart, distinct⟩ := List.pairwise_cons.1 distinct
        rcases List.mem_cons.1 member with rfl | later
        · rw [List.find?_cons_of_pos (by simpa using isName)]
        · have other : name ∉ first.2 := fun again => apart _ later name again isName
          rw [List.find?_cons_of_neg (by simpa using other)]
          have found := ih distinct later
          split at found
          next => exact found
          next => cases found

/-- What stands behind a tag that names a variant: nothing, or a word for an absent value. -/
inductive IsBlank : Document → Prop where
  | plain {word} (means : word ∈ nullWords) : IsBlank (.plain word)
  | text : IsBlank (.text "")
  | block : IsBlank (.block "")

theorem requireBlank_eq_ok_iff : requireBlank doc = .ok () ↔ doc.IsBlank := by
  constructor
  · intro found
    unfold requireBlank at found
    split at found
    next =>
        split at found
        next means => exact .plain (isPlainNull_iff.1 means)
        next => cases found
    next => exact .text
    next => exact .block
    next => cases found
  · rintro (means | _ | _)
    · exact if_pos (isPlainNull_iff.2 means)
    · rfl
    · rfl

/-- A tag gives a name behind an exclamation mark. -/
theorem tagVariant?_eq_some_iff {tag name : String} :
    tagVariant? tag = some name ↔ name ≠ "" ∧ tag = "!" ++ name := by
  unfold tagVariant?
  split
  next c rest same =>
      have isTag : tag = "!" ++ String.ofList (c :: rest) :=
        String.toList_injective (by simpa using same)
      rw [Option.some.injEq, isTag, String.append_right_inj]
      refine ⟨fun same => ⟨?_, same⟩, And.right⟩
      subst same
      simp
  next other =>
      refine iff_of_false nofun fun ⟨notEmpty, same⟩ => ?_
      subst same
      cases letters : name.toList with
      | nil => exact notEmpty (String.toList_eq_nil_iff.1 letters)
      | cons c rest => exact other c rest (by simp [letters])

/-- A variant without content is given by one of its names. The formats differ in how it can be
written besides: as a table whose only key is the name, or as a tag. -/
inductive IsVariant (names : α → List String) : DocumentFormat → Document → α → Prop where
  | json {name value} (named : name ∈ names value) : IsVariant names .json (.text name) value
  | jsonKey {key name value} (isName : IsText key name) (named : name ∈ names value) :
      IsVariant names .json (.table [(key, .null)]) value
  | toml {name value} (named : name ∈ names value) : IsVariant names .toml (.text name) value
  | tomlKey {key name value content} (isName : IsText key name) (named : name ∈ names value)
      (isEmpty : content = .list [] ∨ content = .table []) :
      IsVariant names .toml (.table [(key, content)]) value
  | yaml {doc name value} (isName : IsText doc name) (named : name ∈ names value)
      (bare : ∀ tag content, doc ≠ .tagged tag content) : IsVariant names .yaml doc value
  | yamlTag {name value content} (notEmpty : name ≠ "") (named : name ∈ names value)
      (isBlank : IsBlank content) : IsVariant names .yaml (.tagged ("!" ++ name) content) value
  | yamlOther {tag name value content} (isOther : ∀ word ≠ "", tag ≠ "!" ++ word)
      (isName : IsText content name) (named : name ∈ names value) :
      IsVariant names .yaml (.tagged tag content) value

theorem requireNull_eq_ok_iff : requireNull doc = .ok () ↔ doc = .null := by
  cases doc <;> simp [requireNull]

theorem requireEmpty_eq_ok_iff :
    requireEmpty doc = .ok () ↔ doc = .list [] ∨ doc = .table [] := by
  unfold requireEmpty
  split <;> simp_all

/-- A variant is read from its names when these are the ones that its spellings list. -/
theorem decides_asVariant {spellings : Spellings α} {names : α → List String}
    (distinct : spellings.Distinct)
    (listed : ∀ value name, spellings.Names name value ↔ name ∈ names value)
    (format : DocumentFormat) : Decides (asVariant format spellings) (IsVariant names format) := by
  have named {name : String} {value : α} :
      variantNamed spellings name = .ok value ↔ name ∈ names value :=
    (variantNamed_eq_ok_iff distinct).trans (listed value name)
  have ofKey {key : Document} {value : α} : variantOf spellings key = .ok value ↔
      ∃ name, IsText key name ∧ name ∈ names value := by
    rw [variantOf, bind_eq_ok]
    exact exists_congr fun name => and_congr (decides_asText key name) named
  intro doc value
  constructor
  · intro read
    unfold asVariant at read
    split at read
    next => exact .json (named.1 read)
    next key content rest =>
        obtain ⟨variant, known, read⟩ := bind_eq_ok.1 read
        obtain ⟨⟨⟩, isNull, read⟩ := bind_eq_ok.1 read
        obtain ⟨name, isName, isNamed⟩ := ofKey.1 known
        cases requireNull_eq_ok_iff.1 isNull
        split at read
        next alone =>
            cases read
            cases List.isEmpty_iff.1 alone
            exact .jsonKey isName isNamed
        next => cases read
    next => exact .toml (named.1 read)
    next key content =>
        obtain ⟨variant, known, read⟩ := bind_eq_ok.1 read
        obtain ⟨⟨⟩, isEmpty, read⟩ := bind_eq_ok.1 read
        obtain ⟨name, isName, isNamed⟩ := ofKey.1 known
        cases read
        exact .tomlKey isName isNamed (requireEmpty_eq_ok_iff.1 isEmpty)
    next => cases read
    next => cases read
    next tag content =>
        split at read
        next name isTag =>
            obtain ⟨notEmpty, rfl⟩ := tagVariant?_eq_some_iff.1 isTag
            obtain ⟨variant, known, read⟩ := bind_eq_ok.1 read
            obtain ⟨⟨⟩, isBlank, read⟩ := bind_eq_ok.1 read
            cases read
            exact .yamlTag notEmpty (named.1 known) (requireBlank_eq_ok_iff.1 isBlank)
        next isOther =>
            obtain ⟨name, isName, isNamed⟩ := ofKey.1 read
            refine .yamlOther (fun word notEmpty same => ?_) isName isNamed
            rw [tagVariant?_eq_some_iff.2 ⟨notEmpty, same⟩] at isOther
            cases isOther
    next bare =>
        obtain ⟨name, isName, isNamed⟩ := ofKey.1 read
        exact .yaml isName isNamed bare
  · rintro (isNamed | ⟨isName, isNamed⟩ | isNamed | ⟨isName, isNamed, isEmpty⟩ |
      ⟨isName, isNamed, bare⟩ | ⟨notEmpty, isNamed, isBlank⟩ | ⟨isOther, isName, isNamed⟩)
    · exact named.2 isNamed
    · exact bind_eq_ok.2 ⟨_, ofKey.2 ⟨_, isName, isNamed⟩, rfl⟩
    · exact named.2 isNamed
    · exact bind_eq_ok.2 ⟨_, ofKey.2 ⟨_, isName, isNamed⟩,
        bind_eq_ok.2 ⟨_, requireEmpty_eq_ok_iff.2 isEmpty, rfl⟩⟩
    · rw [asVariant]
      · exact ofKey.2 ⟨_, isName, isNamed⟩
      · exact bare
    · rw [asVariant, tagVariant?_eq_some_iff.2 ⟨notEmpty, rfl⟩]
      exact bind_eq_ok.2 ⟨_, named.2 isNamed,
        bind_eq_ok.2 ⟨_, requireBlank_eq_ok_iff.2 isBlank, rfl⟩⟩
    · have noName : tagVariant? _ = none :=
        Option.eq_none_iff_forall_ne_some.2 fun word isTag =>
          isOther word (tagVariant?_eq_some_iff.1 isTag).1 (tagVariant?_eq_some_iff.1 isTag).2
      rw [asVariant, noName]
      exact ofKey.2 ⟨_, isName, isNamed⟩

end BuildConstants.Document
