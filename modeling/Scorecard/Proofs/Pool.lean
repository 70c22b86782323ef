import Mathlib.Data.List.Nodup
import Mathlib.Logic.Relation
import Scorecard.Proofs.Registry
import Scorecard.Score.Pool

set_option autoImplicit false

/-! # Scoring side by side

The tasks of a pool wait in a queue, are run by one of `n` workers, and are finished in any order.
The caller waits until all tasks are finished or its time is up, and then puts the answer together.
`Pool.Step` is one step of all this. Whatever the order of the steps, the answer is what scoring one
category after the other gives, or it names exactly the unfinished categories
(`Pool.Inv.answer_cases`). A pool that has come to rest gives the answer of `evaluateAll`
(`Pool.Inv.answerOf_eq_evaluateAll`).
-/

namespace Scorecard

/-- What the task of a category gives. -/
abbrev TaskResult := Except ScoreError CategoryScore

/-- A pool with its caller: the tasks that wait, in order, those that are run, those that are
finished with their results, and what the caller answers, once it has stopped waiting. -/
structure Pool where
  waiting : List Category
  running : List Category := []
  finished : List (Category × TaskResult) := []
  answer : Option (Except PoolError (List CategoryScore)) := none

namespace Pool

/-- What the caller makes of the tasks when it stops waiting: if some are not finished it fails and
names them, in order; otherwise it collects the results, in order. -/
def answerOf (tasks : List Category) (p : Pool) : Except PoolError (List CategoryScore) :=
  match tasks.filter fun c => (p.finished.lookup c).isNone with
  | [] => ((tasks.filterMap fun c => p.finished.lookup c).mapM id).mapError .score
  | left => .error (.timeout left)

/-- One step of a pool with `n` workers. A worker that is free starts the first task that waits. A
task that is run may finish, if it `ends` at all. The caller stops waiting when all tasks are
finished, or at any time because its time is up; what the workers do after that is nothing to it. -/
inductive Step (n : ℕ) (ends : Category → Bool) (work : Category → TaskResult)
    (tasks : List Category) : Pool → Pool → Prop
  | start (c : Category) (waiting running : List Category)
      (finished : List (Category × TaskResult)) : running.length < n →
        Step n ends work tasks ⟨c :: waiting, running, finished, none⟩
          ⟨waiting, running ++ [c], finished, none⟩
  | finish (c : Category) (waiting before later : List Category)
      (finished : List (Category × TaskResult)) : ends c = true →
        Step n ends work tasks ⟨waiting, before ++ c :: later, finished, none⟩
          ⟨waiting, before ++ later, finished ++ [(c, work c)], none⟩
  | collect (finished : List (Category × TaskResult)) :
      Step n ends work tasks ⟨[], [], finished, none⟩
        ⟨[], [], finished, some (answerOf tasks ⟨[], [], finished, none⟩)⟩
  | expire (p : Pool) :
      p.answer = none → Step n ends work tasks p { p with answer := some (answerOf tasks p) }

/-- The pools that can come about. -/
def Reachable (n : ℕ) (ends : Category → Bool) (work : Category → TaskResult)
    (tasks : List Category) (p : Pool) : Prop :=
  Relation.ReflTransGen (Step n ends work tasks) { waiting := tasks } p

/-- The tasks that are not finished, in order. -/
def unfinished (tasks : List Category) (p : Pool) : List Category :=
  tasks.filter fun c => decide (c ∈ p.running ∨ c ∈ p.waiting)

variable {n : ℕ} {ends : Category → Bool} {work : Category → TaskResult} {tasks : List Category}
  {p q : Pool}

/-! ## What every step keeps -/

/-- The tasks are started in order, each once, and only while a worker is free; a finished task has
its own result. -/
structure Inv (n : ℕ) (ends : Category → Bool) (work : Category → TaskResult)
    (tasks : List Category) (p : Pool) : Prop where
  split : ∃ started, tasks = started ++ p.waiting ∧
    started.Perm (p.finished.map (·.1) ++ p.running) ∧
    ∀ before c later, started = before ++ c :: later → (before.filter fun d => !ends d).length < n
  results : ∀ f ∈ p.finished, f.2 = work f.1
  ended : ∀ f ∈ p.finished, ends f.1 = true
  busy : p.running.length ≤ n
  answered : ∀ a, p.answer = some a → a = answerOf tasks p

theorem inv_initial (n : ℕ) (ends : Category → Bool) (work : Category → TaskResult)
    (tasks : List Category) : Inv n ends work tasks { waiting := tasks } where
  split := by
    refine ⟨[], rfl, List.Perm.refl _, ?_⟩
    intro before c later h
    simp at h
  results := by intro f hf; cases hf
  ended := by intro f hf; cases hf
  busy := Nat.zero_le n
  answered := by intro a ha; cases ha

/-- Tasks that never end are being run once they are started. -/
theorem length_filter_started {started : List Category}
    (hperm : started.Perm (p.finished.map (·.1) ++ p.running))
    (hended : ∀ f ∈ p.finished, ends f.1 = true) :
    (started.filter fun d => !ends d).length = (p.running.filter fun d => !ends d).length := by
  have hfinished : (p.finished.map (·.1)).filter (fun d => !ends d) = [] := by
    rw [List.filter_eq_nil_iff]
    intro d hd
    obtain ⟨f, hf, rfl⟩ := List.mem_map.mp hd
    simp [hended f hf]
  rw [(hperm.filter _).length_eq, List.filter_append, hfinished, List.nil_append]

/-- If a list with one more element is split, the part before is all of the list or the split is
within the list. -/
theorem prefix_cases {started before later : List Category} {c d : Category}
    (h : started ++ [c] = before ++ d :: later) :
    before = started ∨ ∃ later', started = before ++ d :: later' := by
  rcases List.eq_nil_or_concat later with rfl | ⟨later', x, rfl⟩
  · exact Or.inl (List.append_inj' h rfl).1.symm
  · refine Or.inr ⟨later', ?_⟩
    have h' : started ++ [c] = (before ++ d :: later') ++ [x] := by
      rw [h, List.concat_eq_append, List.append_assoc, List.cons_append]
    exact (List.append_inj' h' rfl).1

theorem Inv.step (h : Inv n ends work tasks p) (hstep : Step n ends work tasks p q) :
    Inv n ends work tasks q := by
  cases hstep with
  | start c waiting running finished hfree =>
      obtain ⟨started, htasks, hperm, hfew⟩ := h.split
      refine ⟨⟨started ++ [c], ?_, ?_, ?_⟩, h.results, h.ended, ?_, ?_⟩
      · rw [htasks, List.append_assoc]
        rfl
      · rw [← List.append_assoc]
        exact hperm.append_right [c]
      · -- a worker is free, so fewer than `n` tasks that never end have been started
        intro before d later hsplit
        rcases prefix_cases hsplit with rfl | ⟨later', hsplit'⟩
        · calc (before.filter fun d => !ends d).length = (running.filter fun d => !ends d).length :=
                length_filter_started hperm h.ended
            _ ≤ running.length := List.length_filter_le _ _
            _ < n := hfree
        · exact hfew before d later' hsplit'
      · rw [List.length_append]
        exact hfree
      · intro a ha
        cases ha
  | finish c waiting before later finished hends =>
      obtain ⟨started, htasks, hperm, hfew⟩ := h.split
      refine ⟨⟨started, htasks, hperm.trans ?_, hfew⟩, ?_, ?_, ?_, ?_⟩
      · -- the task moves from the running ones to the finished ones
        change (finished.map (·.1) ++ (before ++ c :: later)).Perm
          ((finished ++ [(c, work c)]).map (·.1) ++ (before ++ later))
        rw [List.map_append, List.append_assoc]
        exact List.Perm.append_left _ List.perm_middle
      · intro f hf
        rcases List.mem_append.mp hf with hf | hf
        · exact h.results f hf
        · rw [List.mem_singleton.mp hf]
      · intro f hf
        rcases List.mem_append.mp hf with hf | hf
        · exact h.ended f hf
        · rw [List.mem_singleton.mp hf]
          exact hends
      · have hbusy : (before ++ c :: later).length ≤ n := h.busy
        change (before ++ later).length ≤ n
        rw [List.length_append, List.length_cons] at hbusy
        rw [List.length_append]
        omega
      · intro a ha
        cases ha
  | collect finished =>
      refine ⟨h.split, h.results, h.ended, h.busy, ?_⟩
      intro a ha
      exact (Option.some.inj ha).symm
  | expire p hnone =>
      refine ⟨h.split, h.results, h.ended, h.busy, ?_⟩
      intro a ha
      exact (Option.some.inj ha).symm

/-- Whatever the order of the steps. -/
theorem Reachable.inv (h : Reachable n ends work tasks p) : Inv n ends work tasks p := by
  induction h with
  | refl => exact inv_initial n ends work tasks
  | tail _ hstep ih => exact ih.step hstep

/-! ## The answer -/

/-- A task is in one place at a time. -/
theorem Inv.perm (h : Inv n ends work tasks p) :
    tasks.Perm (p.finished.map (·.1) ++ p.running ++ p.waiting) := by
  obtain ⟨started, htasks, hperm, -⟩ := h.split
  rw [htasks]
  exact hperm.append_right _

/-- A finished task has its own result, and no other task has one. -/
theorem Inv.lookup_finished (h : Inv n ends work tasks p) (hnodup : tasks.Nodup) {c : Category}
    (hc : c ∈ tasks) :
    p.finished.lookup c = if c ∈ p.running ∨ c ∈ p.waiting then none else some (work c) := by
  have hplaces := h.perm.nodup_iff.mp hnodup
  rw [List.append_assoc, List.nodup_append] at hplaces
  -- a task is finished, running or waiting, and only one of these
  obtain ⟨hkeys, -, hapart⟩ := hplaces
  split
  · rename_i hother
    rw [List.lookup_eq_none_iff]
    intro f hf
    have hne : f.1 ≠ c := hapart f.1 (List.mem_map.mpr ⟨f, hf, rfl⟩) c (List.mem_append.mpr hother)
    simpa using hne.symm
  · rename_i hother
    have hmem : c ∈ p.finished.map (·.1) ++ p.running ++ p.waiting := h.perm.mem_iff.mp hc
    rw [List.append_assoc, List.mem_append] at hmem
    rcases hmem with hdone | hrest
    · obtain ⟨f, hf, rfl⟩ := List.mem_map.mp hdone
      rw [lookup_eq_some_of_mem hkeys hf, h.results f hf]
    · exact absurd (List.mem_append.mp hrest) hother

theorem Inv.filter_isNone (h : Inv n ends work tasks p) (hnodup : tasks.Nodup) :
    (tasks.filter fun c => (p.finished.lookup c).isNone) = p.unfinished tasks := by
  refine List.filter_congr fun c hc => ?_
  rw [h.lookup_finished hnodup hc]
  by_cases hother : c ∈ p.running ∨ c ∈ p.waiting <;> simp [hother]

theorem Inv.answerOf_of_finished (h : Inv n ends work tasks p) (hnodup : tasks.Nodup)
    (hall : p.unfinished tasks = []) : answerOf tasks p = (tasks.mapM work).mapError .score := by
  have hresults : (tasks.filterMap fun c => p.finished.lookup c) = tasks.map work := by
    rw [← List.filterMap_eq_map]
    refine List.filterMap_congr fun c hc => ?_
    have hother : ¬(c ∈ p.running ∨ c ∈ p.waiting) := by
      simpa using List.filter_eq_nil_iff.mp hall c hc
    rw [h.lookup_finished hnodup hc, if_neg hother]
    rfl
  rw [answerOf, h.filter_isNone hnodup, hall, hresults]
  simp only [List.mapM_map]
  rfl

theorem Inv.answerOf_of_unfinished (h : Inv n ends work tasks p) (hnodup : tasks.Nodup)
    (hsome : p.unfinished tasks ≠ []) :
    answerOf tasks p = .error (.timeout (p.unfinished tasks)) := by
  rw [answerOf, h.filter_isNone hnodup]
  cases hleft : p.unfinished tasks with
  | nil => exact absurd hleft hsome
  | cons c rest => rfl

/-- **The answers of a pool.** There is none yet, or all tasks are finished and it is what one task
after the other gives, or some are not and it names exactly these. -/
theorem Inv.answer_cases (h : Inv n ends work tasks p) (hnodup : tasks.Nodup) :
    p.answer =
      none ∨ (p.unfinished tasks = [] ∧ p.answer = some ((tasks.mapM work).mapError .score)) ∨
      (p.unfinished tasks ≠ [] ∧ p.answer = some (.error (.timeout (p.unfinished tasks)))) := by
  cases hanswer : p.answer with
  | none => exact Or.inl rfl
  | some a =>
      refine Or.inr ?_
      rw [h.answered a hanswer]
      by_cases hall : p.unfinished tasks = []
      · exact Or.inl ⟨hall, by rw [h.answerOf_of_finished hnodup hall]⟩
      · exact Or.inr ⟨hall, by rw [h.answerOf_of_unfinished hnodup hall]⟩

/-! ## Coming to rest -/

/-- No worker can go on: the tasks that are run never end, and no task waits or no worker is
free. -/
def AtRest (n : ℕ) (ends : Category → Bool) (p : Pool) : Prop :=
  (∀ c ∈ p.running, ends c = false) ∧ (p.waiting = [] ∨ n ≤ p.running.length)

/-- A pool comes to rest, since a task is started once and finished once. -/
theorem exists_atRest (n : ℕ) (ends : Category → Bool) (work : Category → TaskResult)
    (tasks : List Category) :
    ∀ (steps : ℕ) (p : Pool), p.answer = none → 2 * p.waiting.length + p.running.length ≤ steps →
      ∃ q, Relation.ReflTransGen (Step n ends work tasks) p q ∧ q.answer = none ∧
        AtRest n ends q := by
  intro steps
  induction steps with
  | zero =>
      intro p hnone hsteps
      have hwaiting : p.waiting = [] := List.eq_nil_of_length_eq_zero (by omega)
      have hrunning : p.running = [] := List.eq_nil_of_length_eq_zero (by omega)
      refine ⟨p, Relation.ReflTransGen.refl, hnone, ?_, Or.inl hwaiting⟩
      intro c hc
      rw [hrunning] at hc
      cases hc
  | succ steps ih =>
      intro p hnone hsteps
      by_cases hrest : AtRest n ends p
      · exact ⟨p, Relation.ReflTransGen.refl, hnone, hrest⟩
      · obtain ⟨waiting, running, finished, answer⟩ := p
        have hnone : answer = none := hnone
        subst hnone
        have hsteps : 2 * waiting.length + running.length ≤ steps + 1 := hsteps
        -- a started task counts one and a waiting one two, so both finishing and starting lower the
        -- count
        by_cases hend : ∃ c ∈ running, ends c = true
        · obtain ⟨c, hc, hends⟩ := hend
          obtain ⟨before, later, rfl⟩ := List.append_of_mem hc
          rw [List.length_append, List.length_cons] at hsteps
          obtain ⟨q, hq, hqnone, hqrest⟩ :=
            ih ⟨waiting, before ++ later, finished ++ [(c, work c)], none⟩ rfl (by
            change 2 * waiting.length + (before ++ later).length ≤ steps
            rw [List.length_append]
            omega)
          exact ⟨q, Relation.ReflTransGen.head (Step.finish c waiting before later finished hends)
            hq, hqnone, hqrest⟩
        · have hnever : ∀ c ∈ running, ends c = false := by
            intro c hc
            by_contra hends
            exact hend ⟨c, hc, by simpa using hends⟩
          have hbusy : ¬(waiting = [] ∨ n ≤ running.length) := fun hbusy => hrest ⟨hnever, hbusy⟩
          rw [not_or] at hbusy
          obtain ⟨c, rest, rfl⟩ := List.exists_cons_of_ne_nil hbusy.1
          rw [List.length_cons] at hsteps
          obtain ⟨q, hq, hqnone, hqrest⟩ := ih ⟨rest, running ++ [c], finished, none⟩ rfl (by
            change 2 * rest.length + (running ++ [c]).length ≤ steps
            rw [List.length_append, List.length_singleton]
            omega)
          have hfree : running.length < n := Nat.lt_of_not_le hbusy.2
          exact ⟨q, Relation.ReflTransGen.head (Step.start c rest running finished hfree) hq,
            hqnone, hqrest⟩

/-- The caller of a pool in which all is finished stops waiting. -/
theorem Step.collect_of_finished (hwaiting : p.waiting = []) (hrunning : p.running = [])
    (hnone : p.answer = none) :
    Step n ends work tasks p { p with answer := some (answerOf tasks p) } := by
  obtain ⟨waiting, running, finished, answer⟩ := p
  have hwaiting : waiting = [] := hwaiting
  have hrunning : running = [] := hrunning
  have hnone : answer = none := hnone
  subst hwaiting hrunning hnone
  exact Step.collect finished

/-- At rest, the tasks that are not finished are the started ones that never end and those that
still wait. -/
theorem Inv.unfinished_of_atRest (h : Inv n ends work tasks p) (hnodup : tasks.Nodup)
    (hrest : AtRest n ends p) :
    ∃ started, tasks = started ++ p.waiting ∧
      p.unfinished tasks = (started.filter fun d => !ends d) ++ p.waiting ∧
      (started.filter fun d => !ends d).length = p.running.length ∧
      ∀ before c later, started = before ++ c :: later →
        (before.filter fun d => !ends d).length < n := by
  obtain ⟨started, htasks, hperm, hfew⟩ := h.split
  refine ⟨started, htasks, ?_, ?_, hfew⟩
  · have happart : ∀ c ∈ started, c ∉ p.waiting := by
      rw [htasks, List.nodup_append] at hnodup
      intro c hc hw
      exact hnodup.2.2 c hc c hw rfl
    rw [unfinished, htasks, List.filter_append]
    congr 1
    · -- a started task is finished or running, and at rest only those that never end are running
      refine List.filter_congr fun c hc => ?_
      have hplace := hperm.mem_iff.mp hc
      rw [List.mem_append] at hplace
      by_cases hends : ends c = true
      · have hrun : c ∉ p.running := fun hrun => by simpa [hends] using hrest.1 c hrun
        simp [hends, hrun, happart c hc]
      · have hrun : c ∈ p.running := by
          rcases hplace with hdone | hrun
          · obtain ⟨f, hf, rfl⟩ := List.mem_map.mp hdone
            exact absurd (h.ended f hf) hends
          · exact hrun
        simp [hends, hrun]
    · rw [List.filter_eq_self]
      intro c hc
      simp [hc]
  · rw [length_filter_started hperm h.ended]
    congr 1
    rw [List.filter_eq_self]
    intro c hc
    simp [hrest.1 c hc]

end Pool

/-! ## What is computed without a pool -/

/-- With as many workers as `free`, the tasks that are left are those that never end, up to the one
that keeps the last worker, and all after it. -/
theorem unfinished_append (stalled : Category → Bool) (started waiting : List Category) (free : ℕ)
    (hfew : ∀ before c later, started = before ++ c :: later →
      (before.filter stalled).length < free)
    (hend : waiting = [] ∨ (started.filter stalled).length = free) :
    unfinished stalled (some free) (started ++ waiting) = started.filter stalled ++ waiting := by
  induction started generalizing free with
  | nil =>
      rcases hend with rfl | hfree
      · simp [unfinished]
      · have hzero : free = 0 := hfree.symm
        subst hzero
        cases waiting <;> simp [unfinished]
  | cons c rest ih =>
      have hpos : 0 < free := hfew [] c rest rfl
      obtain ⟨k, rfl⟩ := Nat.exists_eq_succ_of_ne_zero hpos.ne'
      -- a task that never ends takes its worker away from the rest
      by_cases hstalled : stalled c = true
      · have hrest := ih k (by
          intro before d later hsplit
          have := hfew (c :: before) d later (by rw [hsplit]; rfl)
          simp only [List.filter_cons, hstalled, if_true, List.length_cons] at this
          omega) (by
          refine hend.imp_right fun hlength => ?_
          simp only [List.filter_cons, hstalled, if_true, List.length_cons] at hlength
          omega)
        simp [unfinished, hstalled, hrest]
      · have hrest := ih (k + 1) (by
          intro before d later hsplit
          have := hfew (c :: before) d later (by rw [hsplit]; rfl)
          simp only [List.filter_cons, hstalled] at this
          exact this) (by
          refine hend.imp_right fun hlength => ?_
          simp only [List.filter_cons, hstalled] at hlength
          exact hlength)
        simp [unfinished, hstalled, hrest]

/-- Without a bound on the workers, only the tasks that never end are left. -/
theorem unfinished_none (stalled : Category → Bool) (tasks : List Category) :
    unfinished stalled none tasks = tasks.filter stalled := by
  induction tasks with
  | nil => simp [unfinished]
  | cons c rest ih => by_cases hstalled : stalled c = true <;> simp [unfinished, hstalled, ih]

theorem Registry.categories_nodup (r : Registry) : r.categories.Nodup := Category.all_nodup.filter _

/-- The number of workers that is asked for, if it is said; otherwise there are enough. -/
def HasWorkers (workers : Option Int) (n : ℕ) (tasks : List Category) : Prop :=
  workers = some (n : Int) ∨ (workers = none ∧ tasks.length ≤ n)

namespace Pool

variable {n : ℕ} {stalled : Category → Bool} {work : Category → TaskResult} {tasks : List Category}
  {p : Pool}

/-- The unfinished tasks of a pool at rest are computed without running it. -/
theorem Inv.unfinished_eq (h : Inv n (fun c => !stalled c) work tasks p) (hnodup : tasks.Nodup)
    (hrest : AtRest n (fun c => !stalled c) p) {workers : Option Int}
    (hworkers : HasWorkers workers n tasks) :
    Scorecard.unfinished stalled (workers.map Int.toNat) tasks = p.unfinished tasks := by
  obtain ⟨started, htasks, hleft, hlength, hfew⟩ := h.unfinished_of_atRest hnodup hrest
  simp only [Bool.not_not] at hleft hlength hfew
  rw [hleft]
  rcases hworkers with rfl | ⟨rfl, henough⟩
  · rw [Option.map_some, Int.toNat_natCast, htasks]
    refine unfinished_append stalled started p.waiting n hfew (hrest.2.imp_right fun hbusy => ?_)
    rw [hlength]
    exact le_antisymm h.busy hbusy
  · have hwaiting : p.waiting = [] := by
      rcases hrest.2 with hwaiting | hbusy
      · exact hwaiting
      · -- as many tasks are run as there are, so none is left to wait
        have htotal := h.perm.length_eq
        rw [List.length_append, List.length_append] at htotal
        exact List.eq_nil_of_length_eq_zero (by omega)
    rw [Option.map_none, unfinished_none, hwaiting, List.append_nil, htasks, hwaiting,
      List.append_nil]

/-- **A pool at rest answers like `evaluateAll`.** -/
theorem Inv.answerOf_eq_evaluateAll {ρ : Rounding} {m : FactModel} {r : Registry}
    {active : Option (List String)}
    (h : Inv n (fun c => !stalls r active c) (evaluate ρ m r active) r.categories p) (hn : 1 ≤ n)
    (hrest : AtRest n (fun c => !stalls r active c) p) {workers : Option Int}
    (hworkers : HasWorkers workers n r.categories) :
    answerOf r.categories p = evaluateAll ρ m r active workers := by
  have hnodup := r.categories_nodup
  have hsome : workers.any (· ≤ 0) = false := by
    rcases hworkers with rfl | ⟨rfl, -⟩
    · simp only [Option.any_some, decide_eq_false_iff_not]
      omega
    · rfl
  -- the pool at rest and the computed schedule leave the same tasks unfinished
  have hleft := h.unfinished_eq hnodup hrest hworkers
  by_cases hempty : r.categories = []
  · have hnone : p.unfinished r.categories = [] := by rw [hempty]; rfl
    rw [h.answerOf_of_finished hnodup hnone, evaluateAll, hempty]
    rfl
  · have hnotEmpty : r.categories.isEmpty = false := by simpa using hempty
    unfold evaluateAll
    simp only [hnotEmpty, hsome, hleft]
    by_cases hall : p.unfinished r.categories = []
    · rw [h.answerOf_of_finished hnodup hall, hall]
      rfl
    · rw [h.answerOf_of_unfinished hnodup hall]
      cases hcons : p.unfinished r.categories with
      | nil => exact absurd hcons hall
      | cons c rest => rfl

end Pool

/-- **Side by side is one after the other.** With any number of workers and in any order of their
steps: each task is in one place at a time, and at most `n` are run at once. As long as the caller
waits there is no answer. Once it has stopped, either all tasks were finished, and the answer has
the scores of the categories one after the other; or some were not, and the answer names exactly
these. If all tasks end, the caller can always wait for all of them. A pool in which no worker can
go on answers like `evaluateAll`, and every pool can go on until then. -/
theorem side_by_side_agrees (n : ℕ) (hn : 1 ≤ n) (ρ : Rounding) (m : FactModel) (r : Registry)
    (active : Option (List String)) :
    let tasks := r.categories
    let work := evaluate ρ m r active
    let ends := fun c => !stalls r active c
    (∀ ends p, Pool.Reachable n ends work tasks p →
        tasks.Perm (p.finished.map (·.1) ++ p.running ++ p.waiting) ∧ p.running.length ≤ n ∧
          (p.answer = none ∨
            (p.unfinished tasks = [] ∧ p.answer = some ((tasks.mapM work).mapError .score)) ∨
            (p.unfinished tasks ≠ [] ∧ p.answer = some (.error (.timeout (p.unfinished tasks)))))) ∧
      (∀ p, Pool.Reachable n (fun _ => true) work tasks p → p.answer = none →
        ∃ q, Relation.ReflTransGen (Pool.Step n (fun _ => true) work tasks) p q ∧
          q.unfinished tasks = [] ∧ q.answer = some ((tasks.mapM work).mapError .score)) ∧
      (∀ p, Pool.Reachable n ends work tasks p → Pool.AtRest n ends p →
        ∀ a workers, p.answer = some a → HasWorkers workers n tasks →
          a = evaluateAll ρ m r active workers) ∧
      (∀ p, Pool.Reachable n ends work tasks p → p.answer = none →
        ∃ q, Relation.ReflTransGen (Pool.Step n ends work tasks) p q ∧ Pool.AtRest n ends q ∧
          q.answer ≠ none) := by
  intro tasks work ends
  have hnodup : tasks.Nodup := r.categories_nodup
  refine ⟨?_, ?_, ?_, ?_⟩
  · intro ends' p hp
    exact ⟨hp.inv.perm, hp.inv.busy, hp.inv.answer_cases hnodup⟩
  · intro p hp hnone
    obtain ⟨q, hq, hqnone, hnever, hwait⟩ :=
      Pool.exists_atRest n (fun _ => true) work tasks _ p hnone (le_refl _)
    -- all tasks end, so at rest none is run, and then none waits
    have hrunning : q.running = [] := List.eq_nil_iff_forall_not_mem.mpr fun c hc => by
      simpa using hnever c hc
    have hwaiting : q.waiting = [] := by
      rcases hwait with hwaiting | hbusy
      · exact hwaiting
      · rw [hrunning, List.length_nil] at hbusy
        omega
    have hall : q.unfinished tasks = [] := by simp [Pool.unfinished, hrunning, hwaiting]
    have hqinv : Pool.Inv n (fun _ => true) work tasks q :=
      Pool.Reachable.inv (Relation.ReflTransGen.trans hp hq)
    refine ⟨{ q with answer := some (q.answerOf tasks) },
      hq.tail (Pool.Step.collect_of_finished hwaiting hrunning hqnone), hall, ?_⟩
    exact congrArg some (hqinv.answerOf_of_finished hnodup hall)
  · intro p hp hrest a workers ha hworkers
    rw [hp.inv.answered a ha]
    exact hp.inv.answerOf_eq_evaluateAll hn hrest hworkers
  · intro p hp hnone
    obtain ⟨q, hq, hqnone, hrest⟩ := Pool.exists_atRest n ends work tasks _ p hnone (le_refl _)
    refine ⟨{ q with answer := some (q.answerOf tasks) }, hq.tail (Pool.Step.expire q hqnone),
      hrest, ?_⟩
    simp

/-- One worker, kept by a rule that never ends: its category and the one behind it are unfinished,
in every order of steps. -/
theorem side_by_side_agrees_kept :
    let slow : Rule :=
      { id := "naming.slow", category := .naming, weight := .finite 1, description := ""
        evaluate := fun _ => .malformed "int", stalls := true }
    let quick : Rule :=
      { id := "testing.quick", category := .testing, weight := .finite 1, description := ""
        evaluate := fun _ => .result { score := .finite 1 } }
    let r := Registry.empty.afterAll .nearest [.register quick, .register slow]
    let m := FactModel.build [] [] "."
    1 ≤ 1 ∧ ∀ p, Pool.Reachable 1 (fun c => !stalls r none c)
      (evaluate .nearest m r none) r.categories p → Pool.AtRest 1 (fun c => !stalls r none c) p →
        ∀ a, p.answer = some a → a = .error (.timeout [.naming, .testing]) := by
  intro slow quick r m
  refine ⟨le_refl 1, ?_⟩
  intro p hp hrest a ha
  have hall :=
    (side_by_side_agrees 1 (le_refl 1) .nearest m r none).2.2.1 p hp hrest a (some 1) ha
    (Or.inl rfl)
  rw [hall]
  decide +kernel

end Scorecard
