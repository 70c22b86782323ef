import Scorecard.Config.Load
import Scorecard.Proofs.Except
import Scorecard.Proofs.IntegerRange

set_option autoImplicit false

/-! # Errors in configurations

What is wrong with a configuration is reported by the name of the setting
(`ConfigError.isReported`), with two exceptions. An integer that is read as a number fails beyond
the range of numbers, and a format is written out before it is looked at, which fails if it holds an
integer with too many digits. Nothing else goes unreported (`unreported_errors`).
-/

namespace Scorecard

/-! ## Readers that report every error -/

/-- Every error of a reader is reported. -/
def Reports {α : Type} (reading : Except ConfigError α) : Prop :=
  ∀ e, reading = .error e → e.isReported = true

theorem reports_readTable (name : String) (v : Option Value) : Reports (readTable name v) := by
  intro e h
  unfold readTable at h
  split at h <;> cases h
  rfl

theorem reports_readTexts (name : String) (v : Option Value) : Reports (readTexts name v) := by
  intro e h
  unfold readTexts at h
  split at h
  · cases h
  · cases h
  · split at h <;> cases h
    rfl
  · cases h
    rfl

theorem reports_readTexts? (name : String) (v : Option Value) : Reports (readTexts? name v) := by
  intro e h
  unfold readTexts? at h
  split at h
  · cases h
  · cases h
  · exact reports_readTexts name v e (map_eq_error_iff.mp h)

theorem reports_readInteger (name : String) (v : Value) : Reports (readInteger name v) := by
  intro e h
  unfold readInteger at h
  split at h <;> cases h
  rfl

theorem reports_readWorkers (v : Option Value) : Reports (readWorkers v) := by
  intro e h
  unfold readWorkers at h
  split at h
  · cases h
  · cases h
  · rcases bind_eq_error_iff.mp h with hread | ⟨n, -, h⟩
    · exact reports_readInteger _ _ e hread
    · split at h <;> cases h
      rfl

theorem reports_readLimitFields (limits : Limits) (fields : Fields) :
    Reports (readLimitFields limits fields) := by
  induction fields generalizing limits with
  | nil =>
      intro e h
      cases h
  | cons field rest ih =>
      intro e h
      rw [readLimitFields] at h
      rcases bind_eq_error_iff.mp h with hread | ⟨n, -, h⟩
      · exact reports_readInteger _ _ e hread
      · split at h
        · cases h
          rfl
        · split at h
          · exact ih _ e h
          · exact ih _ e h

theorem reports_readLimits (fields : Fields) : Reports (readLimits fields) := by
  intro e h
  simp only [readLimits] at h
  split at h
  · cases h
    rfl
  · rcases bind_eq_error_iff.mp h with hread | ⟨limits, -, h⟩
    · exact reports_readLimitFields _ _ e hread
    · split at h <;> cases h
      rfl

theorem reports_resolve (ws : Weights) :
    Reports (discard ((Weights.resolve .nearest ws).mapError ConfigError.weights)) := by
  intro e h
  cases hws : Weights.resolve .nearest ws with
  | ok resolved =>
      rw [hws] at h
      cases h
  | error e' =>
      rw [hws] at h
      cases h
      rfl

/-! ## Integers beyond the range of numbers -/

/-- An integer beyond the range of numbers. -/
def IsBeyondNumbers (n : Int) : Prop := Number.ofInt? .nearest n = none

/-- Every error of a reader is reported, unless one of some values is an integer beyond the range of
numbers. -/
def ReportsUnlessBeyond {α : Type} (vs : List Value) (reading : Except ConfigError α) : Prop :=
  ∀ e, reading = .error e → e.isReported = true ∨ e = .tooLarge ∧ ∃ n, .int n ∈ vs ∧
    IsBeyondNumbers n

theorem Reports.unlessBeyond {α : Type} {reading : Except ConfigError α} (h : Reports reading)
    (vs : List Value) : ReportsUnlessBeyond vs reading := fun e he => Or.inl (h e he)

theorem ReportsUnlessBeyond.mono {α : Type} {vs vs' : List Value} {reading : Except ConfigError α}
    (h : ReportsUnlessBeyond vs reading) (hsub : ∀ v ∈ vs, v ∈ vs') :
    ReportsUnlessBeyond vs' reading := by
  intro e he
  refine (h e he).imp_right ?_
  rintro ⟨hlarge, n, hn, hbeyond⟩
  exact ⟨hlarge, n, hsub _ hn, hbeyond⟩

theorem ReportsUnlessBeyond.bind {α β : Type} {vs : List Value} {reading : Except ConfigError α}
    {f : α → Except ConfigError β} (h : ReportsUnlessBeyond vs reading)
    (hf : ∀ a, ReportsUnlessBeyond vs (f a)) : ReportsUnlessBeyond vs (reading >>= f) :=
  forall_error_bind h fun a _ => hf a

theorem reportsUnlessBeyond_readNumber (name : String) (v : Value) :
    ReportsUnlessBeyond [v] (readNumber .nearest name v) := by
  intro e h
  unfold readNumber at h
  split at h
  · rename_i n
    split at h
    · cases h
    · rename_i hnone
      cases h
      exact Or.inr ⟨rfl, n, List.mem_singleton_self _, hnone⟩
  · split at h <;> cases h
    exact Or.inl rfl
  · cases h
    exact Or.inl rfl

theorem reportsUnlessBeyond_readNumber? (name : String) (v : Option Value) :
    ReportsUnlessBeyond v.toList (readNumber? .nearest name v) := by
  intro e h
  unfold readNumber? at h
  split at h
  · cases h
  · cases h
  · exact reportsUnlessBeyond_readNumber name _ e (map_eq_error_iff.mp h)

theorem reportsUnlessBeyond_readFailUnder (v : Option Value) :
    ReportsUnlessBeyond v.toList (readFailUnder .nearest v) := by
  refine (reportsUnlessBeyond_readNumber? _ v).bind fun found e h => ?_
  cases found with
  | none => cases h
  | some x =>
      simp only at h
      split at h <;> cases h
      exact Or.inl rfl

theorem reportsUnlessBeyond_readBudget (v : Option Value) :
    ReportsUnlessBeyond v.toList (readBudget .nearest v) := by
  refine (reportsUnlessBeyond_readNumber? _ v).bind fun found e h => ?_
  cases found with
  | none => cases h
  | some x =>
      simp only at h
      split at h <;> cases h
      exact Or.inl rfl

theorem reportsUnlessBeyond_readWeights (found : Weights) (fields : Fields) :
    ReportsUnlessBeyond (fields.map (·.2)) (readWeights .nearest found fields) := by
  induction fields generalizing found with
  | nil =>
      intro e h
      cases h
  | cons field rest ih =>
      obtain ⟨name, v⟩ := field
      rw [readWeights]
      split
      · intro e h
        cases h
        exact Or.inl rfl
      · exact ((reportsUnlessBeyond_readNumber _ v).mono (by simp)).bind fun w =>
          (ih _).mono fun v hv => List.mem_cons_of_mem _ hv

/-- A default is not an integer beyond the range. -/
theorem reportsUnlessBeyond_readNumber_getD (name : String) (v : Option Value) (x : Number) :
    ReportsUnlessBeyond v.toList (readNumber .nearest name (v.getD (.number x))) := by
  intro e h
  refine (reportsUnlessBeyond_readNumber name _ e h).imp_right ?_
  rintro ⟨hlarge, n, hn, hbeyond⟩
  refine ⟨hlarge, n, ?_, hbeyond⟩
  cases v with
  | none => simp at hn
  | some v => simpa using hn

theorem reportsUnlessBeyond_readBounds (fields : Fields) :
    ReportsUnlessBeyond
      ((fields.get? "strength_threshold").toList ++ (fields.get? "weakness_threshold").toList)
      (readBounds .nearest fields) := by
  unfold readBounds
  refine ((reports_readInteger _ _).unlessBeyond _).bind fun most => ?_
  split
  · intro e h
    cases h
    exact Or.inl rfl
  refine ((reportsUnlessBeyond_readNumber_getD _ _ _).mono fun v hv =>
    List.mem_append_left _ hv).bind fun strength => ?_
  refine ((reportsUnlessBeyond_readNumber_getD _ _ _).mono fun v hv =>
    List.mem_append_right _ hv).bind fun weakness => ?_
  intro e h
  split at h <;> cases h
  exact Or.inl rfl

/-! ## Whole configurations -/

/-- The settings that are read as numbers. -/
def numberSettings (fields : Fields) : List Value :=
  let inTable (table name : String) : List Value :=
    (((fields.table? table).getD []).get? name).toList
  (fields.get? "fail_under").toList ++ ((fields.table? "weights").getD []).map (·.2) ++
    inTable "report" "strength_threshold" ++
    inTable "report" "weakness_threshold" ++ inTable "evaluation" "budget_seconds"

/-- A table that is read is the field, or is empty if there is none. -/
theorem readTable_eq_ok {name : String} {fields inner : Fields}
    (h : readTable name (fields.get? name) = .ok inner) : inner = (fields.table? name).getD [] := by
  unfold readTable at h
  unfold Fields.table?
  split at h
  · rename_i hget
    cases h
    rw [hget]
    rfl
  · rename_i hget
    cases h
    rw [hget]
    rfl
  · rename_i inner' hget
    cases h
    rw [hget]
    rfl
  · cases h

/-- The format goes unreported only if it cannot be written. -/
theorem readFormat_error {v : Option Value} {e : ConfigError} (h : readFormat v = .error e) :
    e.isReported = true ∨ e = .unprintable ∧ ∃ w, v = some w ∧ w.canBeWritten = false := by
  unfold readFormat at h
  split at h
  · cases h
  · split at h <;> cases h
    exact Or.inl rfl
  · rename_i w hw
    split at h
    · cases h
      exact Or.inl rfl
    · rename_i hunwritable
      cases h
      exact Or.inr ⟨rfl, w, rfl, by simpa using hunwritable⟩

/-- What can be wrong with the settings of a configuration. -/
def Fields.Explain (fields : Fields) (e : ConfigError) : Prop :=
  e.isReported = true ∨ (e = .tooLarge ∧ ∃ n, .int n ∈ numberSettings fields ∧ IsBeyondNumbers n) ∨
    e = .unprintable ∧ ∃ v, fields.get? "format" = some v ∧ v.canBeWritten = false

theorem Reports.explained {α : Type} {reading : Except ConfigError α} (h : Reports reading)
    {fields : Fields} : ∀ e, reading = .error e → fields.Explain e := fun e he => Or.inl (h e he)

theorem ReportsUnlessBeyond.explained {α : Type} {vs : List Value} {reading : Except ConfigError α}
    (h : ReportsUnlessBeyond vs reading) {fields : Fields}
    (hsub : ∀ v ∈ vs, v ∈ numberSettings fields) : ∀ e, reading = .error e → fields.Explain e :=
  fun e he => ((h.mono hsub) e he).imp_right Or.inl

theorem Config.ofFields_error {source : String} {fields : Fields} {e : ConfigError}
    (h : Config.ofFields .nearest source fields = .error e) : fields.Explain e := by
  suffices hall : ∀ e, Config.ofFields .nearest source fields = .error e →
    fields.Explain e from hall e h
  -- one step for each part of a configuration, in the order in which they are read
  refine forall_error_bind (reports_readTable _ _).explained fun rules _ => ?_
  refine forall_error_bind (reports_readTable _ _).explained fun weightFields hweightFields => ?_
  refine forall_error_bind (reports_readTable _ _).explained fun report hreport => ?_
  refine forall_error_bind (reports_readTable _ _).explained fun evaluation hevaluation => ?_
  refine forall_error_bind (reports_readTable _ _).explained fun limitFields _ => ?_
  refine forall_error_bind (fun e he => (readFormat_error he).imp_right Or.inr) fun format _ => ?_
  refine forall_error_bind ((reportsUnlessBeyond_readFailUnder _).explained fun v hv => ?_)
    fun failUnder _ => ?_
  · simp only [numberSettings, List.mem_append, hv, true_or]
  refine forall_error_bind ((reportsUnlessBeyond_readWeights _ _).explained fun v hv => ?_)
    fun weights _ => ?_
  · rw [readTable_eq_ok hweightFields] at hv
    simp only [numberSettings, List.mem_append, hv, true_or, or_true]
  refine forall_error_bind (reports_resolve _).explained fun _ _ => ?_
  refine forall_error_bind (reports_readTexts _ _).explained fun included _ => ?_
  refine forall_error_bind (reports_readTexts _ _).explained fun excluded _ => ?_
  refine forall_error_bind (reports_readTexts? _ _).explained fun enabled _ => ?_
  refine forall_error_bind (reports_readTexts _ _).explained fun disabled _ => ?_
  refine forall_error_bind ((reportsUnlessBeyond_readBounds _).explained fun v hv => ?_)
    fun bounds _ => ?_
  · rw [readTable_eq_ok hreport] at hv
    rcases List.mem_append.mp hv with hv | hv
    · simp only [numberSettings, List.mem_append, hv, true_or, or_true]
    · simp only [numberSettings, List.mem_append, hv, true_or, or_true]
  refine forall_error_bind (reports_readWorkers _).explained fun workers _ => ?_
  refine forall_error_bind ((reportsUnlessBeyond_readBudget _).explained fun v hv => ?_)
    fun budget _ => ?_
  · rw [readTable_eq_ok hevaluation] at hv
    simp only [numberSettings, List.mem_append, hv, or_true]
  refine forall_error_bind (reports_readLimits _).explained fun limits _ => ?_
  intro e h
  cases h

/-- A missing table, or one that is there. -/
def IsTable (v : Option Value) : Prop :=
  v = none ∨ v = some .null ∨ ∃ inner, v = some (.table inner)

theorem readTable_of_isTable (name : String) {v : Option Value} (h : IsTable v) :
    ∃ inner, readTable name v = .ok inner := by
  rcases h with rfl | rfl | ⟨inner, rfl⟩
  · exact ⟨[], rfl⟩
  · exact ⟨[], rfl⟩
  · exact ⟨inner, rfl⟩

/-- The names of the tables of a configuration. -/
def tableNames : List String := ["rules", "weights", "report", "evaluation", "limits"]

/-- After the tables, the format is read, and then the threshold for the score. -/
theorem Config.ofFields_after_tables {fields : Fields}
    (htables : ∀ name ∈ tableNames, IsTable (fields.get? name)) (source : String)
    {e : ConfigError} :
    (readFormat (fields.get? "format") = .error e →
      Config.ofFields .nearest source fields = .error e) ∧
      ∀ f, readFormat (fields.get? "format") = .ok f →
        readFailUnder .nearest (fields.get? "fail_under") = .error e →
        Config.ofFields .nearest source fields = .error e := by
  obtain ⟨rules, hrules⟩ := readTable_of_isTable "rules" (htables "rules" (by decide))
  obtain ⟨weights, hweights⟩ := readTable_of_isTable "weights" (htables "weights" (by decide))
  obtain ⟨report, hreport⟩ := readTable_of_isTable "report" (htables "report" (by decide))
  obtain ⟨evaluation, hevaluation⟩ :=
    readTable_of_isTable "evaluation" (htables "evaluation" (by decide))
  obtain ⟨limits, hlimits⟩ := readTable_of_isTable "limits" (htables "limits" (by decide))
  simp only [Config.ofFields, hrules, hweights, hreport, hevaluation, hlimits]
  constructor
  · intro h
    rw [h]
    rfl
  · intro f hformat h
    rw [hformat, h]
    rfl

/-- **Which errors go unreported.** A configuration is read, or what is wrong with it is reported,
unless an integer that is read as a number is beyond the range of numbers or the format holds an
integer with too many digits. Both do happen: such a format is never reported once the tables are
tables, and neither is such a threshold once the format is one, too. -/
theorem unreported_errors (source : String) (fields : Fields) :
    ((∃ c, Config.ofFields .nearest source fields = .ok c) ∨
      (∃ e, Config.ofFields .nearest source fields = .error e ∧ e.isReported = true) ∨
      (Config.ofFields .nearest source fields = .error .tooLarge ∧
        ∃ n, .int n ∈ numberSettings fields ∧ 2 ^ 1024 - 2 ^ 970 ≤ n.natAbs) ∨
      Config.ofFields .nearest source fields = .error .unprintable ∧
        ∃ v, fields.get? "format" = some v ∧ v.canBeWritten = false) ∧
    ((∀ name ∈ tableNames, IsTable (fields.get? name)) →
      (∀ v, fields.get? "format" = some v → v.canBeWritten = false →
        Config.ofFields .nearest source fields = .error .unprintable) ∧
      ∀ f n, readFormat (fields.get? "format") = .ok f → fields.get? "fail_under" = some (.int n) →
        2 ^ 1024 - 2 ^ 970 ≤ n.natAbs → Config.ofFields .nearest source fields =
          .error .tooLarge) := by
  refine ⟨?_, fun htables => ⟨fun v hv hunwritable => ?_, fun f n hformat hn hbeyond => ?_⟩⟩
  · cases hread : Config.ofFields .nearest source fields with
    | ok c => exact Or.inl ⟨c, rfl⟩
    | error e =>
        rcases Config.ofFields_error hread with hreported | ⟨rfl, n, hn, hbeyond⟩ | ⟨rfl, hformat⟩
        · exact Or.inr (Or.inl ⟨e, rfl, hreported⟩)
        · exact Or.inr (Or.inr (Or.inl ⟨rfl, n, hn, (Number.ofInt?_eq_none_iff n).mp hbeyond⟩))
        · exact Or.inr (Or.inr (Or.inr ⟨rfl, hformat⟩))
  · -- what cannot be written is no text, and all else is written before it is compared
    refine (Config.ofFields_after_tables htables source).1 ?_
    cases v <;> simp_all [readFormat, Value.canBeWritten]
  · refine (Config.ofFields_after_tables htables source).2 f hformat ?_
    have hnone : Number.ofInt? .nearest n = none := (Number.ofInt?_eq_none_iff n).mpr hbeyond
    simp only [hn, readFailUnder, readNumber?, readNumber, hnone]
    rfl

/-- A threshold of `10 ^ 400` is refused, and the error does not say which setting is wrong. -/
theorem unreported_threshold :
    Config.ofFields .nearest "request" [("fail_under", .int (10 ^ 400))] = .error .tooLarge ∧
      ConfigError.tooLarge.isReported = false := by
  decide +kernel

end Scorecard
