import Mathlib.Data.Set.List
import Scorecard.Fact.Document
import Scorecard.Proofs.Except
import Scorecard.Proofs.FactModel

set_option autoImplicit false

/-! # The grammar of facts documents

Which tables are facts documents is said here without the reader: a list of facts, files and a root
that may be missing, and for each fact a table with some fields that must be there and some that
have a default (`IsFactsDocument`). The reader accepts exactly these documents, and the facts of the
model are the elements of the list one by one (`facts_document_grammar`). What it says of any other
document is true of the first thing in it that is wrong (`isTrueOf_of_ofFields`).
-/

namespace Scorecard

/-! ## Grammar -/

namespace Value

/-- A value that a fact can have: a truth value, a number or a text. -/
def IsScalar : Value → Prop
  | bool _ | int _ | number _ | text _ => True
  | _ => False

/-- The integer that a value is. Truth values count as integers. -/
def integer? : Value → Option Int
  | int n => some n
  | bool b => some (if b then 1 else 0)
  | _ => none

end Value

namespace Fields

/-- A field is a text. -/
def HasText (fields : Fields) (name : String) : Prop := ∃ s, fields.get? name = some (.text s)

/-- A field is missing or a text. -/
def MayBeText (fields : Fields) (name : String) : Prop :=
  fields.get? name = none ∨ fields.HasText name

/-- The integer of a field, or the default if the field is missing. -/
def IsInteger (fields : Fields) (name : String) (default n : Int) : Prop :=
  (fields.get? name = none ∧ n = default) ∨ ∃ v, fields.get? name = some v ∧ v.integer? = some n

/-- The files of a document are missing or `null`, or they are a list of texts. -/
def MayListFiles (fields : Fields) : Prop :=
  fields.get? "files" = none ∨ fields.get? "files" = some .null ∨
    ∃ items, fields.get? "files" = some (.list items) ∧ ∀ item ∈ items, ∃ s, item = .text s

/-- The table of a fact. -/
structure DescribesFact (fields : Fields) : Prop where
  kind : ∃ kind, fields.get? "kind" = some (.text kind) ∧ kind ≠ ""
  file : ∃ file, fields.get? "file" = some (.text file) ∧ file ≠ ""
  lines : ∃ start stop, fields.IsInteger "start_line" 0 start ∧
    fields.IsInteger "end_line" start stop ∧ 0 ≤ start ∧ start ≤ stop
  subject : fields.MayBeText "subject"
  value : ∃ v, fields.get? "value" = some v ∧ v.IsScalar

end Fields

/-- An element of the facts of a document. -/
def Value.DescribesFact (item : Value) : Prop :=
  ∃ entry : Fields, item = .table entry ∧ entry.DescribesFact

/-- A facts document. -/
structure Fields.IsFactsDocument (fields : Fields) : Prop where
  facts : ∃ items, fields.get? "facts" = some (.list items) ∧ ∀ item ∈ items, item.DescribesFact
  files : fields.MayListFiles
  root : fields.MayBeText "root"

/-! ## What a document stands for -/

namespace Fields

/-- The text of a field, or the default if the field is missing. -/
def IsText (fields : Fields) (name default s : String) : Prop :=
  (fields.get? name = none ∧ s = default) ∨ fields.get? name = some (.text s)

/-- The line of a field, or the default if the field is missing. A truth value stays one. -/
def IsLine (fields : Fields) (name : String) (default l : LineNumber) : Prop :=
  (fields.get? name = none ∧ l = default) ∨ fields.get? name = some l.toValue

/-- The files that a document lists. -/
def ListsFiles (fields : Fields) (files : List String) : Prop :=
  ((fields.get? "files" = none ∨ fields.get? "files" = some .null) ∧ files = []) ∨
    fields.get? "files" = some (.list (files.map .text))

end Fields

/-- The fact that a table stands for. -/
structure Fact.IsReadFrom (entry : Fields) (f : Fact) : Prop where
  kind : entry.get? "kind" = some (.text f.kind)
  file : entry.get? "file" = some (.text f.location.file)
  start : entry.IsLine "start_line" (.int 0) f.location.start
  stop : entry.IsLine "end_line" f.location.start f.location.stop
  subject : entry.IsText "subject" "" f.subject
  value : entry.get? "value" = some f.value.toValue
  valid : f.Valid

/-- The fact that an element of the facts stands for. -/
def Fact.IsReadFromElement (item : Value) (f : Fact) : Prop :=
  ∃ entry, item = .table entry ∧ f.IsReadFrom entry

/-- The model that a document stands for: its facts are those of the elements, one by one. -/
structure FactModel.IsReadFrom (fields : Fields) (m : FactModel) : Prop where
  facts : ∃ items, fields.get? "facts" = some (.list items) ∧
    List.Forall₂ Fact.IsReadFromElement items m.facts
  files : ∃ files, fields.ListsFiles files ∧ m = FactModel.build m.facts files m.root
  root : fields.IsText "root" wholeCodebase m.root

/-! ## What is wrong with other documents -/

/-- What an error says of the parts that make no fact. -/
inductive FactError.IsTrueOf (kind : String) (location : Location) (value : Value) :
    FactError → Prop where
  | emptyFile (h : location.file = "") : IsTrueOf kind location value (.location .emptyFile)
  | invalidRange (h : ¬(0 ≤ location.start.value ∧ location.start.value ≤ location.stop.value)) :
      IsTrueOf kind location value
        (.location (.invalidRange location.start location.stop location.file))
  | emptyKind (h : kind = "") : IsTrueOf kind location value .emptyKind
  | unsupportedValue (h : ¬value.IsScalar) :
      IsTrueOf kind location value (.unsupportedValue kind location value.typeName)

/-- What an error says of the element at an index. -/
inductive DocumentError.IsTrueOfElement (index : Nat) : Value → DocumentError → Prop where
  | notTable {item : Value} (h : ∀ entry, item ≠ .table entry) :
      IsTrueOfElement index item (.notTable index)
  | noNames {entry : Fields} (h : ¬(entry.HasText "kind" ∧ entry.HasText "file")) :
      IsTrueOfElement index (.table entry) (.noNames index)
  | badLines {entry : Fields} (h : ¬∃ start stop, entry.IsInteger "start_line" 0 start ∧
      entry.IsInteger "end_line" start stop) :
      IsTrueOfElement index (.table entry) (.badLines index)
  | badSubject {entry : Fields} (h : ¬entry.MayBeText "subject") :
      IsTrueOfElement index (.table entry) (.badSubject index)
  | noValue {entry : Fields} (h : entry.get? "value" = none) :
      IsTrueOfElement index (.table entry) (.noValue index)
  | fact {entry : Fields} {kind file : String} {start stop : LineNumber} {value : Value}
      {e : FactError}
      (hkind : entry.get? "kind" = some (.text kind))
        (hfile : entry.get? "file" = some (.text file))
      (hstart : entry.IsLine "start_line" (.int 0) start)
        (hstop : entry.IsLine "end_line" start stop)
      (hvalue : entry.get? "value" = some value) (h : e.IsTrueOf kind ⟨file, start, stop⟩ value) :
      IsTrueOfElement index (.table entry) (.fact e)

/-- What an error says of a document. One about an element speaks of the first that describes no
fact. -/
inductive DocumentError.IsTrueOf (fields : Fields) : DocumentError → Prop where
  | noFacts (h : ∀ items, fields.get? "facts" ≠ some (.list items)) : IsTrueOf fields .noFacts
  | badFiles (h : ¬fields.MayListFiles) : IsTrueOf fields .badFiles
  | badRoot (h : ¬fields.MayBeText "root") : IsTrueOf fields .badRoot
  | element {before after : List Value} {item : Value} {e : DocumentError}
      (hfacts : fields.get? "facts" = some (.list (before ++ item :: after)))
        (hbefore : ∀ b ∈ before, b.DescribesFact)
      (h : e.IsTrueOfElement before.length item) : IsTrueOf fields e

/-! ## Valid parts -/

@[simp] theorem LineNumber.ofValue?_toValue (l : LineNumber) :
    LineNumber.ofValue? l.toValue = some l := by
  cases l <;> rfl

@[simp] theorem FactValue.ofValue?_toValue (v : FactValue) :
    FactValue.ofValue? v.toValue = some v := by
  cases v <;> rfl

theorem Location.check_eq_ok_iff {l l' : Location} : l.check = .ok l' ↔ l.Valid ∧ l = l' := by
  unfold Location.check Location.Valid
  split
  · rename_i hfile
    simp [hfile]
  · rename_i hfile
    split
    · rename_i hlines
      constructor
      · intro h
        cases h
      · rintro ⟨⟨-, hstart, hstop⟩, -⟩
        omega
    · rename_i hlines
      have hvalid : 0 ≤ l.start.value ∧ l.start.value ≤ l.stop.value := by omega
      simp [hfile, hvalid]

namespace Fact

/-- A fact is made of valid parts, and of nothing else. -/
theorem make_eq_ok_iff {kind subject : String} {location : Location} {value : Value} {f : Fact} :
    make kind location value subject = .ok f ↔
      f.Valid ∧ f.kind = kind ∧ f.location = location ∧ FactValue.ofValue? value = some f.value ∧
        f.subject = subject := by
  obtain ⟨k, l, v, t⟩ := f
  -- the location is looked at before the kind, and the kind before the value
  constructor
  · intro h
    obtain ⟨checked, hchecked, h⟩ := bind_eq_ok_iff.mp h
    obtain ⟨hvalid, rfl⟩ := Location.check_eq_ok_iff.mp (mapError_eq_ok_iff.mp hchecked)
    by_cases hkind : kind = ""
    · rw [if_pos hkind] at h
      cases h
    · rw [if_neg hkind] at h
      cases hvalue : FactValue.ofValue? value with
      | none =>
          simp only [hvalue] at h
          cases h
      | some v' =>
          simp only [hvalue] at h
          cases h
          exact ⟨⟨hvalid, hkind⟩, rfl, rfl, rfl, rfl⟩
  · rintro ⟨⟨hvalid, hkind⟩, rfl, rfl, hvalue, rfl⟩
    have hcheck : l.check = .ok l := Location.check_eq_ok_iff.mpr ⟨hvalid, rfl⟩
    have hkind : k ≠ "" := hkind
    simp only [make, hcheck, if_neg hkind, hvalue]
    rfl

theorem check_eq_ok_iff {f g : Fact} : f.check = .ok g ↔ f.Valid ∧ f = g := by
  rw [check, make_eq_ok_iff, FactValue.ofValue?_toValue]
  constructor
  · rintro ⟨hvalid, hkind, hlocation, hvalue, hsubject⟩
    obtain rfl : f = g := by
      obtain ⟨k, l, v, t⟩ := g
      obtain ⟨k', l', v', t'⟩ := f
      cases hkind
      cases hlocation
      cases hvalue
      cases hsubject
      rfl
    exact ⟨hvalid, rfl⟩
  · rintro ⟨hvalid, rfl⟩
    exact ⟨hvalid, rfl, rfl, rfl, rfl⟩

end Fact

/-! ## Fields with a default -/

theorem LineNumber.ofValue?_eq_some_iff {v : Value} {l : LineNumber} :
    LineNumber.ofValue? v = some l ↔ v = l.toValue := by
  constructor
  · intro h
    cases v <;> cases h <;> rfl
  · rintro rfl
    exact LineNumber.ofValue?_toValue l

theorem FactValue.ofValue?_eq_some_iff {v : Value} {x : FactValue} :
    FactValue.ofValue? v = some x ↔ v = x.toValue := by
  constructor
  · intro h
    cases v <;> cases h <;> rfl
  · rintro rfl
    exact FactValue.ofValue?_toValue x

namespace Value

theorem isScalar_iff {v : Value} : v.IsScalar ↔ ∃ x : FactValue, v = x.toValue := by
  constructor
  · intro h
    cases v with
    | bool b => exact ⟨.bool b, rfl⟩
    | int n => exact ⟨.int n, rfl⟩
    | number x => exact ⟨.number x, rfl⟩
    | text s => exact ⟨.text s, rfl⟩
    | _ => cases h
  · rintro ⟨x, rfl⟩
    cases x <;> trivial

theorem integer?_eq_some_iff {v : Value} {n : Int} :
    v.integer? = some n ↔ ∃ l : LineNumber, v = l.toValue ∧ l.value = n := by
  constructor
  · intro h
    cases v with
    | int k => exact ⟨.int k, rfl, Option.some.inj h⟩
    | bool b => exact ⟨.flag b, rfl, Option.some.inj h⟩
    | _ => cases h
  · rintro ⟨l, rfl, rfl⟩
    cases l <;> rfl

theorem texts?_map_text (files : List String) : texts? (files.map .text) = some files := by
  induction files with
  | nil => rfl
  | cons file rest ih => simp [texts?, ih]

theorem texts?_eq_some_iff {items : List Value} {files : List String} :
    texts? items = some files ↔ items = files.map .text := by
  constructor
  · intro h
    induction items generalizing files with
    | nil =>
        cases h
        rfl
    | cons item rest ih =>
        cases item with
        | text s =>
            obtain ⟨more, hmore, rfl⟩ := Option.map_eq_some_iff.mp h
            rw [ih hmore, List.map_cons]
        | _ => cases h
  · rintro rfl
    exact texts?_map_text files

end Value

section Defaults

variable {fields : Fields} {name : String}

theorem ofValue?_getD_iff (default l : LineNumber) :
    LineNumber.ofValue? ((fields.get? name).getD default.toValue) = some l ↔
      fields.IsLine name default l := by
  rw [LineNumber.ofValue?_eq_some_iff, Fields.IsLine]
  cases fields.get? name with
  | none =>
      constructor
      · intro h
        have hline := LineNumber.ofValue?_toValue default
        rw [show default.toValue = l.toValue from h, LineNumber.ofValue?_toValue] at hline
        exact Or.inl ⟨rfl, Option.some.inj hline⟩
      · rintro (⟨-, rfl⟩ | h)
        · rfl
        · cases h
  | some v => simp

theorem getD_text_iff (default s : String) :
    (fields.get? name).getD (.text default) = .text s ↔ fields.IsText name default s := by
  rw [Fields.IsText]
  cases fields.get? name with
  | none => simp [eq_comm]
  | some v => simp

/-- A field is an integer if a line is read from it. -/
theorem isInteger_iff (default : LineNumber) {n : Int} :
    fields.IsInteger name default.value n ↔ ∃ l : LineNumber, fields.IsLine name default l ∧
      l.value = n := by
  constructor
  · rintro (⟨hnone, rfl⟩ | ⟨v, hv, hn⟩)
    · exact ⟨default, Or.inl ⟨hnone, rfl⟩, rfl⟩
    · obtain ⟨l, rfl, hl⟩ := Value.integer?_eq_some_iff.mp hn
      exact ⟨l, Or.inr hv, hl⟩
  · rintro ⟨l, ⟨hnone, rfl⟩ | hv, rfl⟩
    · exact Or.inl ⟨hnone, rfl⟩
    · exact Or.inr ⟨_, hv, Value.integer?_eq_some_iff.mpr ⟨l, rfl, rfl⟩⟩

theorem mayBeText_iff (default : String) :
    fields.MayBeText name ↔ ∃ s, fields.IsText name default s := by
  constructor
  · rintro (hnone | ⟨s, hs⟩)
    · exact ⟨default, Or.inl ⟨hnone, rfl⟩⟩
    · exact ⟨s, Or.inr hs⟩
  · rintro ⟨s, ⟨hnone, -⟩ | hs⟩
    · exact Or.inl hnone
    · exact Or.inr ⟨s, hs⟩

theorem mayListFiles_iff : fields.MayListFiles ↔ ∃ files, fields.ListsFiles files := by
  constructor
  · rintro (hnone | hnull | ⟨items, hitems, htexts⟩)
    · exact ⟨[], Or.inl ⟨Or.inl hnone, rfl⟩⟩
    · exact ⟨[], Or.inl ⟨Or.inr hnull, rfl⟩⟩
    · -- a list of texts is the image of their strings
      obtain ⟨files, rfl⟩ : items ∈ Set.range (List.map Value.text) := by
        rw [Set.range_list_map]
        intro item hitem
        obtain ⟨s, rfl⟩ := htexts item hitem
        exact ⟨s, rfl⟩
      exact ⟨files, Or.inr hitems⟩
  · rintro ⟨files, ⟨hnone | hnull, -⟩ | hlist⟩
    · exact Or.inl hnone
    · exact Or.inr (Or.inl hnull)
    · refine Or.inr (Or.inr ⟨_, hlist, ?_⟩)
      intro item hitem
      obtain ⟨s, -, rfl⟩ := List.mem_map.mp hitem
      exact ⟨s, rfl⟩

end Defaults

/-! ## Facts -/

namespace Fact

theorem isTrueOf_of_make {kind subject : String} {location : Location} {value : Value}
    {e : FactError} (h : make kind location value subject = .error e) :
    e.IsTrueOf kind location value := by
  rcases bind_eq_error_iff.mp h with hlocation | ⟨checked, hchecked, h⟩
  · -- the place is checked first, for its file and then for its lines
    obtain ⟨e', he', rfl⟩ := mapError_eq_error_iff.mp hlocation
    rw [Location.check] at he'
    by_cases hfile : location.file = ""
    · rw [if_pos hfile] at he'
      cases he'
      exact .emptyFile hfile
    · rw [if_neg hfile] at he'
      by_cases hlines : location.start.value < 0 ∨ location.stop.value < location.start.value
      · rw [if_pos hlines] at he'
        cases he'
        exact .invalidRange (by omega)
      · rw [if_neg hlines] at he'
        cases he'
  · obtain ⟨-, rfl⟩ := Location.check_eq_ok_iff.mp (mapError_eq_ok_iff.mp hchecked)
    by_cases hkind : kind = ""
    · rw [if_pos hkind] at h
      cases h
      exact .emptyKind hkind
    · rw [if_neg hkind] at h
      cases hvalue : FactValue.ofValue? value with
      | some v =>
          simp only [hvalue] at h
          cases h
      | none =>
          simp only [hvalue] at h
          cases h
          apply FactError.IsTrueOf.unsupportedValue
          -- every scalar is the value of some fact
          intro hscalar
          obtain ⟨x, rfl⟩ := Value.isScalar_iff.mp hscalar
          rw [FactValue.ofValue?_toValue] at hvalue
          cases hvalue

variable {index : Nat} {entry : Fields} {f : Fact}

/-- **A table is read as the fact that it stands for.** -/
theorem ofFields_eq_ok_iff : ofFields index entry = .ok f ↔ f.IsReadFrom entry := by
  constructor
  · intro h
    simp only [ofFields] at h
    split at h
    · rename_i kind file hkind hfile
      split at h
      · rename_i start stop hstart hstop
        split at h
        · rename_i subject hsubject
          split at h
          · rename_i value hvalue
            obtain ⟨hvalid, rfl, hlocation, hof, rfl⟩ := make_eq_ok_iff.mp (mapError_eq_ok_iff.mp h)
            -- what stands for the first line is the default of the last one
            rw [LineNumber.ofValue?_eq_some_iff.mp hstart] at hstop
            rw [FactValue.ofValue?_eq_some_iff.mp hof] at hvalue
            obtain ⟨k, l, v, t⟩ := f
            cases hlocation
            exact ⟨hkind, hfile, (ofValue?_getD_iff (.int 0) start).mp hstart,
              (ofValue?_getD_iff start stop).mp hstop,
              (getD_text_iff "" _).mp hsubject, hvalue, hvalid⟩
          · cases h
        · cases h
      · cases h
    · cases h
  · rintro ⟨hkind, hfile, hstart, hstop, hsubject, hvalue, hvalid⟩
    have hfirst :
        LineNumber.ofValue? ((entry.get? "start_line").getD (.int 0)) = some f.location.start :=
      (ofValue?_getD_iff (.int 0) _).mpr hstart
    have hlast :
        LineNumber.ofValue? ((entry.get? "end_line").getD
          ((entry.get? "start_line").getD (.int 0))) = some f.location.stop := by
      rw [LineNumber.ofValue?_eq_some_iff.mp hfirst]
      exact (ofValue?_getD_iff _ _).mpr hstop
    have hmake : make f.kind f.location f.value.toValue f.subject = .ok f :=
      make_eq_ok_iff.mpr ⟨hvalid, rfl, rfl, by simp, rfl⟩
    simp only [ofFields, hkind, hfile, hfirst, hlast, (getD_text_iff _ _).mpr hsubject, hvalue]
    exact mapError_eq_ok_iff.mpr hmake

/-- A table stands for a fact if the grammar says so. -/
theorem exists_isReadFrom_iff : (∃ f : Fact, f.IsReadFrom entry) ↔ entry.DescribesFact := by
  constructor
  · rintro ⟨f, hkind, hfile, hstart, hstop, hsubject, hvalue, ⟨hfile', hle, hle'⟩, hkind'⟩
    have hfirst : entry.IsInteger "start_line" 0 f.location.start.value :=
      (isInteger_iff (.int 0)).mpr ⟨_, hstart, rfl⟩
    have hlast : entry.IsInteger "end_line" f.location.start.value f.location.stop.value :=
      (isInteger_iff _).mpr ⟨_, hstop, rfl⟩
    exact ⟨⟨_, hkind, hkind'⟩, ⟨_, hfile, hfile'⟩, ⟨_, _, hfirst, hlast, hle, hle'⟩,
      (mayBeText_iff "").mpr ⟨_, hsubject⟩, _, hvalue, Value.isScalar_iff.mpr ⟨_, rfl⟩⟩
  · rintro ⟨⟨kind, hkind, hkind'⟩, ⟨file, hfile, hfile'⟩, ⟨_, _, hfirst, hlast, hle, hle'⟩,
      hsubject, v, hvalue, hscalar⟩
    obtain ⟨start, hstart, rfl⟩ := (isInteger_iff (.int 0)).mp hfirst
    obtain ⟨stop, hstop, rfl⟩ := (isInteger_iff _).mp hlast
    obtain ⟨subject, hsubject⟩ := (mayBeText_iff "").mp hsubject
    obtain ⟨x, rfl⟩ := Value.isScalar_iff.mp hscalar
    exact ⟨⟨kind, ⟨file, start, stop⟩, x, subject⟩, hkind, hfile, hstart, hstop, hsubject, hvalue,
      ⟨hfile', hle, hle'⟩, hkind'⟩

theorem exists_isReadFromElement_iff {item : Value} :
    (∃ f : Fact, f.IsReadFromElement item) ↔ item.DescribesFact := by
  simp only [IsReadFromElement, Value.DescribesFact, ← exists_isReadFrom_iff]
  constructor
  · rintro ⟨f, entry, hitem, hf⟩
    exact ⟨entry, hitem, f, hf⟩
  · rintro ⟨entry, hitem, f, hf⟩
    exact ⟨f, entry, hitem, hf⟩

theorem isTrueOfElement_of_ofFields {e : DocumentError} (h : ofFields index entry = .error e) :
    e.IsTrueOfElement index (.table entry) := by
  simp only [ofFields] at h
  split at h
  · rename_i kind file hkind hfile
    split at h
    · rename_i start stop hstart hstop
      split at h
      · rename_i subject hsubject
        split at h
        · rename_i value hvalue
          obtain ⟨e', he', rfl⟩ := mapError_eq_error_iff.mp h
          -- the last line defaults to the first one, as it was read
          rw [LineNumber.ofValue?_eq_some_iff.mp hstart] at hstop
          exact .fact hkind hfile ((ofValue?_getD_iff (.int 0) _).mp hstart)
            ((ofValue?_getD_iff _ _).mp hstop) hvalue (isTrueOf_of_make he')
        · rename_i hvalue
          cases h
          exact .noValue hvalue
      · rename_i hsubject
        cases h
        apply DocumentError.IsTrueOfElement.badSubject
        intro htext
        obtain ⟨s, hs⟩ := (mayBeText_iff "").mp htext
        exact hsubject s ((getD_text_iff "" s).mpr hs)
    · rename_i hlines
      cases h
      apply DocumentError.IsTrueOfElement.badLines
      -- if both were integers, the reader would have found both lines
      rintro ⟨_, _, hfirst, hlast⟩
      obtain ⟨start, hstart, rfl⟩ := (isInteger_iff (.int 0)).mp hfirst
      obtain ⟨stop, hstop, rfl⟩ := (isInteger_iff _).mp hlast
      have hstart := (ofValue?_getD_iff (.int 0) start).mpr hstart
      have hstop := (ofValue?_getD_iff start stop).mpr hstop
      rw [← LineNumber.ofValue?_eq_some_iff.mp hstart] at hstop
      exact hlines start stop hstart hstop
  · rename_i hnames
    cases h
    apply DocumentError.IsTrueOfElement.noNames
    rintro ⟨⟨kind, hkind⟩, file, hfile⟩
    exact hnames kind file hkind hfile

/-- **The elements of a document are read one by one.** -/
theorem ofValues_eq_ok_iff {items : List Value} {facts : List Fact} :
    ofValues index items = .ok facts ↔ List.Forall₂ IsReadFromElement items facts := by
  induction items generalizing index facts with
  | nil =>
      constructor
      · intro h
        cases h
        exact .nil
      · intro h
        cases h
        rfl
  | cons item rest ih =>
      constructor
      · intro h
        cases item with
        | table entry =>
            obtain ⟨f, hf, h⟩ := bind_eq_ok_iff.mp h
            obtain ⟨more, hmore, h⟩ := bind_eq_ok_iff.mp h
            cases h
            exact .cons ⟨entry, rfl, ofFields_eq_ok_iff.mp hf⟩ (ih.mp hmore)
        | _ => cases h
      · rintro (_ | ⟨⟨entry, rfl, hf⟩, hmore⟩)
        rw [ofValues, ofFields_eq_ok_iff.mpr hf, ih.mpr hmore]
        rfl

/-- The first element that is refused is told by its index. -/
theorem isTrueOfElement_of_ofValues {items : List Value} {e : DocumentError}
    (h : ofValues index items = .error e) :
    ∃ before item after, items = before ++ item :: after ∧ (∀ b ∈ before, b.DescribesFact) ∧
      e.IsTrueOfElement (index + before.length) item := by
  induction items generalizing index with
  | nil => cases h
  | cons item rest ih =>
      cases item with
      | table entry =>
          rcases bind_eq_error_iff.mp h with hf | ⟨f, hf, h⟩
          · exact ⟨[], .table entry, rest, rfl, List.forall_mem_nil _,
              isTrueOfElement_of_ofFields hf⟩
          · rcases bind_eq_error_iff.mp h with hmore | ⟨more, -, h⟩
            · obtain ⟨before, item, after, rfl, hbefore, he⟩ := ih hmore
              refine ⟨.table entry :: before, item, after, rfl, ?_, ?_⟩
              · rw [List.forall_mem_cons]
                exact ⟨⟨entry, rfl, exists_isReadFrom_iff.mp ⟨f, ofFields_eq_ok_iff.mp hf⟩⟩,
                  hbefore⟩
              · -- the rest is read from the next index on
                have hindex :
                    index + (Value.table entry :: before).length = index + 1 + before.length := by
                  rw [List.length_cons]
                  omega
                rw [hindex]
                exact he
            · cases h
      | _ =>
          cases h
          refine ⟨[], _, rest, rfl, List.forall_mem_nil _, .notTable ?_⟩
          intro entry hentry
          cases hentry

end Fact

/-! ## Documents -/

namespace FactModel

variable {fields : Fields}

theorem readFiles_eq_ok_iff {files : List String} :
    readFiles (fields.get? "files") = .ok files ↔ fields.ListsFiles files := by
  constructor
  · intro h
    cases hget : fields.get? "files" with
    | none =>
        rw [hget] at h
        cases h
        exact Or.inl ⟨Or.inl hget, rfl⟩
    | some v =>
        rw [hget] at h
        cases v with
        | null =>
            cases h
            exact Or.inl ⟨Or.inr hget, rfl⟩
        | list items =>
            simp only [readFiles] at h
            split at h
            · rename_i found hfound
              cases h
              rw [Value.texts?_eq_some_iff.mp hfound] at hget
              exact Or.inr hget
            · cases h
        | _ => cases h
  · rintro (⟨hnone | hnull, rfl⟩ | hlist)
    · rw [hnone]
      rfl
    · rw [hnull]
      rfl
    · simp only [hlist, readFiles, Value.texts?_map_text]

theorem eq_badFiles_of_readFiles {v : Option Value} {e : DocumentError}
    (h : readFiles v = .error e) : e = .badFiles := by
  unfold readFiles at h
  split at h
  · cases h
  · cases h
  · split at h
    · cases h
    · cases h
      rfl
  · cases h
    rfl

/-- **A document is read as the model that it stands for.** -/
theorem ofFields_eq_ok_iff {m : FactModel} : ofFields fields = .ok m ↔ m.IsReadFrom fields := by
  constructor
  · intro h
    simp only [ofFields] at h
    split at h
    · rename_i items hitems
      obtain ⟨files, hfiles, h⟩ := bind_eq_ok_iff.mp h
      split at h
      · rename_i root hroot
        obtain ⟨facts, hfacts, h⟩ := bind_eq_ok_iff.mp h
        cases h
        exact ⟨⟨items, hitems, Fact.ofValues_eq_ok_iff.mp hfacts⟩,
          ⟨files, readFiles_eq_ok_iff.mp hfiles, rfl⟩, (getD_text_iff _ _).mp hroot⟩
      · cases h
    · cases h
  · rintro ⟨⟨items, hitems, hfacts⟩, ⟨files, hfiles, hm⟩, hroot⟩
    simp only [ofFields, hitems, readFiles_eq_ok_iff.mpr hfiles, (getD_text_iff _ _).mpr hroot,
      Fact.ofValues_eq_ok_iff.mpr hfacts]
    exact congrArg Except.ok hm.symm

/-- A document stands for a model if the grammar says so. -/
theorem exists_isReadFrom_iff : (∃ m : FactModel, m.IsReadFrom fields) ↔
    fields.IsFactsDocument := by
  -- each element stands for a fact if and only if there is a list of facts for all of them
  have hfacts (items : List Value) :
      (∃ facts, List.Forall₂ Fact.IsReadFromElement items facts) ↔
        ∀ item ∈ items, item.DescribesFact := by
    rw [exists_forall₂_iff]
    exact forall₂_congr fun item _ => Fact.exists_isReadFromElement_iff
  constructor
  · rintro ⟨m, ⟨items, hitems, hread⟩, ⟨files, hfiles, -⟩, hroot⟩
    have hall := (hfacts items).mp ⟨m.facts, hread⟩
    exact ⟨⟨items, hitems, hall⟩, mayListFiles_iff.mpr ⟨files, hfiles⟩,
      (mayBeText_iff _).mpr ⟨m.root, hroot⟩⟩
  · rintro ⟨⟨items, hitems, hall⟩, hfiles, hroot⟩
    obtain ⟨facts, hread⟩ := (hfacts items).mpr hall
    obtain ⟨files, hfiles⟩ := mayListFiles_iff.mp hfiles
    obtain ⟨root, hroot⟩ := (mayBeText_iff wholeCodebase).mp hroot
    exact ⟨build facts files root, ⟨items, hitems, hread⟩, ⟨files, hfiles, rfl⟩, hroot⟩

/-- **What is said of a document that is refused is true.** -/
theorem isTrueOf_of_ofFields {e : DocumentError} (h : ofFields fields = .error e) :
    e.IsTrueOf fields := by
  simp only [ofFields] at h
  split at h
  · rename_i items hitems
    rcases bind_eq_error_iff.mp h with hfiles | ⟨files, hfiles, h⟩
    · obtain rfl := eq_badFiles_of_readFiles hfiles
      apply DocumentError.IsTrueOf.badFiles
      -- a list of texts would have been read
      intro hlists
      obtain ⟨files, hlists⟩ := mayListFiles_iff.mp hlists
      rw [readFiles_eq_ok_iff.mpr hlists] at hfiles
      cases hfiles
    · split at h
      · rename_i root hroot
        rcases bind_eq_error_iff.mp h with hfacts | ⟨facts, -, h⟩
        · obtain ⟨before, item, after, rfl, hbefore, he⟩ := Fact.isTrueOfElement_of_ofValues hfacts
          rw [Nat.zero_add] at he
          exact .element hitems hbefore he
        · cases h
      · rename_i hroot
        cases h
        apply DocumentError.IsTrueOf.badRoot
        intro htext
        obtain ⟨s, hs⟩ := (mayBeText_iff wholeCodebase).mp htext
        exact hroot s ((getD_text_iff wholeCodebase s).mpr hs)
  · rename_i hfacts
    cases h
    exact .noFacts hfacts

end FactModel

/-- **The reader of facts documents accepts exactly the documents of the grammar.** A document that
it accepts is read as the model that it stands for, with one fact for each element and in their
order. Of any other document it tells what is wrong, and nothing else happens. -/
theorem facts_document_grammar (fields : Fields) :
    ((∃ m, FactModel.ofFields fields = .ok m) ↔ fields.IsFactsDocument) ∧
      (∀ m, FactModel.ofFields fields = .ok m ↔ m.IsReadFrom fields) ∧
      ((∃ e : DocumentError, FactModel.ofFields fields = .error e ∧ e.IsTrueOf fields) ↔
        ¬fields.IsFactsDocument) := by
  have hok : (∃ m, FactModel.ofFields fields = .ok m) ↔ fields.IsFactsDocument := by
    rw [← FactModel.exists_isReadFrom_iff]
    exact exists_congr fun m => FactModel.ofFields_eq_ok_iff
  refine ⟨hok, fun m => FactModel.ofFields_eq_ok_iff, ?_⟩
  rw [← hok]
  cases h : FactModel.ofFields fields with
  | ok m => simp
  | error e => simpa using FactModel.isTrueOf_of_ofFields h

end Scorecard
