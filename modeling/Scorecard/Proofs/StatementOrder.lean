import Scorecard.Proofs.GrammarBounds

set_option autoImplicit false

/-! # Statements stand one after the other

A statement starts at the first token that is taken for it and ends at the last one. As readers only
go down, the statements of a module stand below each other, in the order of the text: each starts
where the one before it ends or below (`parse_inOrder`).
-/

namespace Scorecard.Source

/-! ## Trees in order -/

namespace Node

/-- Trees on the lines from `lo` to `hi`, each of which starts where the one before it ends or
below. -/
def InOrder : Nat → List Node → Nat → Prop
  | lo, [], hi => lo ≤ hi
  | lo, n :: ns, hi => lo ≤ n.line ∧ n.line ≤ n.lastLine ∧ InOrder n.lastLine ns hi

namespace InOrder

variable {lo lo' mid hi hi' : Nat} {ns ms : List Node}

theorem le (h : InOrder lo ns hi) : lo ≤ hi := by
  induction ns generalizing lo with
  | nil => exact h
  | cons n ns ih =>
      obtain ⟨hlo, hspan, hns⟩ := h
      calc lo ≤ n.line := hlo
        _ ≤ n.lastLine := hspan
        _ ≤ hi := ih hns

theorem mono_left (h : InOrder lo ns hi) (hle : lo' ≤ lo) : InOrder lo' ns hi := by
  cases ns with
  | nil => exact hle.trans h
  | cons n ns => exact ⟨hle.trans h.1, h.2⟩

theorem mono_right (h : InOrder lo ns hi) (hle : hi ≤ hi') : InOrder lo ns hi' := by
  induction ns generalizing lo with
  | nil => exact Nat.le_trans h hle
  | cons n ns ih => exact ⟨h.1, h.2.1, ih h.2.2⟩

theorem append (h : InOrder lo ns mid) (h' : InOrder mid ms hi) : InOrder lo (ns ++ ms) hi := by
  induction ns generalizing lo with
  | nil => exact h'.mono_left h
  | cons n ns ih => exact ⟨h.1, h.2.1, ih h.2.2⟩

theorem sublist (h : InOrder lo ns hi) (hsub : ms.Sublist ns) : InOrder lo ms hi := by
  induction hsub generalizing lo with
  | slnil => exact h
  | cons n _ ih => exact ih (h.2.2.mono_left (h.1.trans h.2.1))
  | cons_cons n _ ih => exact ⟨h.1, h.2.1, ih h.2.2⟩

theorem map_as (h : InOrder lo ns hi) (role : Role) : InOrder lo (ns.map (·.as role)) hi := by
  induction ns generalizing lo with
  | nil => exact h
  | cons n ns ih =>
      cases n
      exact ⟨h.1, h.2.1, ih h.2.2⟩

/-- A tree lies between the bounds. -/
theorem line_le_of_mem (h : InOrder lo ns hi) {n : Node} (hn : n ∈ ns) :
    lo ≤ n.line ∧ n.line ≤ n.lastLine ∧ n.lastLine ≤ hi := by
  induction ns generalizing lo with
  | nil => cases hn
  | cons m ns ih =>
      obtain ⟨hlo, hspan, hns⟩ := h
      rcases List.mem_cons.mp hn with rfl | hn
      · exact ⟨hlo, hspan, hns.le⟩
      · obtain ⟨hline, hrest⟩ := ih hns hn
        exact ⟨by omega, hrest⟩

/-- The first tree starts before the last one ends. -/
theorem head_le_getLast (h : InOrder lo ns hi) {first last : Node} (hfirst : ns.head? = some first)
    (hlast : ns.getLast? = some last) : first.line ≤ last.lastLine := by
  cases ns with
  | nil => cases hfirst
  | cons n ns =>
      cases hfirst
      rcases List.mem_cons.mp (List.mem_of_getLast? hlast) with rfl | hmem
      · exact h.2.1
      · obtain ⟨hline, hspan, -⟩ := h.2.2.line_le_of_mem hmem
        have hfirst := h.2.1
        omega

end InOrder

end Node

/-! ## Readers of statements -/

/-- A token that is no mark lies above the last line after it was taken. -/
theorem Cursor.Takes.start_le {bottom start k : Nat} {c c' : Cursor} (h : c.Takes k c') (hk : 1 ≤ k)
    (hc : c.Within bottom) (hstart : c.StartsAt start) : start ≤ c'.lastLine := by
  obtain ⟨t, rest, htokens, hmark, rfl⟩ := hstart
  obtain ⟨tokens, lastLine⟩ := c
  dsimp only at htokens
  subst htokens
  have ht := hc.tokens t List.mem_cons_self
  cases h with
  | none => omega
  | next h =>
      calc t.line ≤ t.lastLine := ht.ordered
        _ = (past t rest lastLine).lastLine := by rw [past, hmark]; rfl
        _ ≤ c'.lastLine := (h.within hc.past.1).2

namespace Reader

variable {bottom start : Nat} {α β : Type}

/-- The node of a reader starts on the line `start` and ends with the last token taken. -/
def Builds (start : Nat) (r : Reader Node) : Prop :=
  ∀ c n c', r c = some (n, c') → n.line = start ∧ n.lastLine = c'.lastLine

theorem builds_node {label : Label} {children : List Node} :
    Builds start (node label start children) := by
  intro c n c' hrun
  cases hrun
  exact ⟨rfl, rfl⟩

theorem builds_failure : Builds start failure := by
  intro c n c' hrun
  cases hrun

/-- What is read before does not matter. -/
theorem builds_bind {r : Reader α} {f : α → Reader Node} (h : ∀ a, Builds start (f a)) :
    Builds start (r >>= f) := by
  intro c n c' hrun
  obtain ⟨a, _, -, hrest⟩ := bind_eq_some_iff.mp hrun
  exact h a _ n c' hrest

theorem builds_ite {p : Prop} [Decidable p] {r s : Reader Node} (h : Builds start r)
    (h' : Builds start s) : Builds start (if p then r else s) := by
  split
  · exact h
  · exact h'

/-- The trees of a result stand between the last line before it and the last line after it, if it is
read where `at_` holds. -/
def Orders (bottom : Nat) (at_ : Cursor → Prop) (trees : α → List Node) (r : Reader α) : Prop :=
  ∀ c a c', c.Within bottom → at_ c → r c = some (a, c') →
    Node.InOrder c.lastLine (trees a) c'.lastLine

/-- Every cursor. -/
abbrev anywhere (_ : Cursor) : Prop := True

/-- The trees of a reader of one tree. -/
abbrev single (n : Node) : List Node := [n]

section

variable {at_ : Cursor → Prop} {trees : α → List Node} {trees' : β → List Node} {r s : Reader α}
  {f : α → Reader β}
  {P : Nat → α → Prop}

theorem Orders.at (h : Orders bottom anywhere trees r) (at_ : Cursor → Prop) :
    Orders bottom at_ trees r :=
  fun c a c' hc _ hrun => h c a c' hc trivial hrun

theorem orders_failure : Orders bottom at_ trees failure := by
  intro c a c' _ _ hrun
  cases hrun

/-- What is read first has no trees. -/
theorem Yields.orders_bind (h : Yields bottom r P)
    (hf : ∀ k a, P k a → Orders bottom anywhere trees' (f a)) :
    Orders bottom at_ trees' (r >>= f) := by
  intro c b c'' hc _ hrun
  obtain ⟨a, c', hfirst, hrest⟩ := bind_eq_some_iff.mp hrun
  obtain ⟨k, htakes, ha⟩ := h.run hc hfirst
  obtain ⟨hc', hle⟩ := htakes.within hc
  exact (hf k a ha c' b c'' hc' trivial hrest).mono_left hle

/-- What is read last keeps the trees in order. -/
theorem Orders.bind (h : Orders bottom at_ trees r) (hr : Yields bottom r P)
    (hf : ∀ a, Yields bottom (f a) fun _ b => ∀ lo hi, Node.InOrder lo (trees a) hi →
      Node.InOrder lo (trees' b) hi) :
    Orders bottom at_ trees' (r >>= f) := by
  intro c b c'' hc hat hrun
  obtain ⟨a, c', hfirst, hrest⟩ := bind_eq_some_iff.mp hrun
  obtain ⟨k, htakes, -⟩ := hr.run hc hfirst
  have hc' := (htakes.within hc).1
  obtain ⟨m, htakes', hb⟩ := (hf a).run hc' hrest
  exact (hb _ _ (h c a c' hc hat hfirst)).mono_right (htakes'.within hc').2

theorem Orders.orElse (h : Orders bottom at_ trees r) (h' : Orders bottom at_ trees s) :
    Orders bottom at_ trees (r <|> s) := by
  intro c a c' hc hat hrun
  rcases orElse_eq_some hrun with hrun | hrun
  · exact h c a c' hc hat hrun
  · exact h' c a c' hc hat hrun

theorem orders_peek_bind {f : TokenKind → Reader β}
    (h : ∀ kind, Orders bottom at_ trees' (f kind)) : Orders bottom at_ trees' (peek >>= f) := by
  intro c b c' hc hat hrun
  obtain ⟨kind, _, hfirst, hrest⟩ := bind_eq_some_iff.mp hrun
  rw [peek_run] at hfirst
  cases hfirst
  exact h _ c b c' hc hat hrest

theorem orders_line_bind {f : Nat → Reader β}
    (h : ∀ start, start ≤ bottom → Orders bottom (·.StartsAt start) trees' (f start)) :
    Orders bottom at_ trees' (line >>= f) := by
  intro c b c' hc _ hrun
  obtain ⟨start, _, hfirst, hrest⟩ := bind_eq_some_iff.mp hrun
  obtain ⟨rfl, hstart⟩ := line_eq_some_iff.mp hfirst
  exact h start (hstart.le_bottom hc) c b c' hc hstart hrest

/-- Many results after each other. -/
theorem Orders.many (h : Orders bottom anywhere trees r) (hr : Yields bottom r P) :
    Orders bottom anywhere (·.flatMap trees) (many r) := by
  -- each result starts where the one before it ended, whatever the fuel is
  have hwithin : ∀ fuel c, c.Within bottom →
      Node.InOrder c.lastLine ((manyWithin r fuel c).1.flatMap trees)
        (manyWithin r fuel c).2.lastLine := by
    intro fuel
    induction fuel with
    | zero => exact fun c _ => le_refl c.lastLine
    | succ fuel ih =>
        intro c hc
        rw [manyWithin]
        cases hrun : r.run c with
        | none => exact le_refl c.lastLine
        | some found =>
            obtain ⟨a, c'⟩ := found
            obtain ⟨k, htakes, -⟩ := hr.run hc hrun
            rw [List.flatMap_cons]
            exact (h c a c' hc trivial hrun).append (ih c' (htakes.within hc).1)
  intro c as c' hc _ hrun
  have hfound := hwithin (c.tokens.length + 1) c hc
  rwa [show manyWithin r (c.tokens.length + 1) c = (as, c') from Option.some.inj hrun] at hfound

/-- Results after each other with a symbol between them. -/
theorem Orders.separated {separator : String} (h : Orders bottom anywhere trees r)
    (hr : Yields bottom r P) :
    Orders bottom anywhere (·.flatMap trees) (Reader.separated separator r) := by
  have hreads : Yields bottom r fun _ _ => True := hr.mono fun _ _ _ => trivial
  have hmore : Orders bottom anywhere trees (do symbol separator; r) :=
    yields_expect.orders_bind fun _ _ _ => h
  intro c as c'' hc _ hrun
  obtain ⟨first, c', hfirst, hrest⟩ := bind_eq_some_iff.mp hrun
  obtain ⟨more, _, hmany, hrest⟩ := bind_eq_some_iff.mp hrest
  cases hrest
  obtain ⟨k, htakes, -⟩ := hr.run hc hfirst
  show Node.InOrder c.lastLine ((first :: more).flatMap trees) c''.lastLine
  rw [List.flatMap_cons]
  exact (h c first c' hc trivial hfirst).append
    (hmore.many (yields_symbol_bind (Q := fun _ _ => True) hreads) c' more c''
      (htakes.within hc).1 trivial hmany)

end

/-- A node from the first token taken to the last one. -/
theorem inOrder_of_takes {k : Nat} {c c' : Cursor} {n : Node} (hc : c.Within bottom)
    (htakes : c.Takes k c') (hk : 1 ≤ k) (hstart : c.StartsAt n.line)
    (hlast : n.lastLine = c'.lastLine) : Node.InOrder c.lastLine [n] c'.lastLine := by
  have habove : c.lastLine ≤ n.line := by
    obtain ⟨t, rest, htokens, -, hline⟩ := hstart
    rw [← hline]
    exact hc.below t (by rw [htokens]; exact List.mem_cons_self)
  have hspan := htakes.start_le hk hc hstart
  exact ⟨habove, hlast ▸ hspan, le_of_eq hlast⟩

theorem Builds.orders {r : Reader Node} {P : Nat → Node → Prop} (h : Builds start r)
    (hr : Yields bottom r P) (hpaid : ∀ k n, P k n → 1 ≤ k) :
    Orders bottom (·.StartsAt start) single r := by
  intro c n c' hc hstart hrun
  obtain ⟨k, htakes, hn⟩ := hr.run hc hrun
  obtain ⟨rfl, hlast⟩ := h c n c' hrun
  exact inOrder_of_takes hc htakes (hpaid k n hn) hstart hlast

/-- A node that is read from its first line on. -/
theorem orders_of_builds {at_ : Cursor → Prop} {f : Nat → Reader Node} {P : Nat → Node → Prop}
    (hr : Yields bottom (line >>= f) P) (hpaid : ∀ k n, P k n → 1 ≤ k)
    (h : ∀ start, Builds start (f start)) : Orders bottom at_ single (line >>= f) := by
  intro c n c' hc _ hrun
  obtain ⟨k, htakes, hn⟩ := hr.run hc hrun
  obtain ⟨start, _, hfirst, hrest⟩ := bind_eq_some_iff.mp hrun
  obtain ⟨rfl, hstart⟩ := line_eq_some_iff.mp hfirst
  obtain ⟨rfl, hlast⟩ := h start _ n c' hrest
  exact inOrder_of_takes hc htakes (hpaid k n hn) hstart hlast

end Reader

/-! ## Rules -/

namespace Grammar

open Reader

variable {bottom start : Nat} {at_ : Cursor → Prop} {g : Grammar} (hg : g.Bounded bottom)

theorem builds_functionRule [Text.CharacterNames] {decorators : List Node} {isAsync : Bool} :
    Builds start (functionRule g decorators start isAsync) :=
  builds_bind fun _ => builds_bind fun _ => builds_bind fun _ => builds_bind fun _ =>
    builds_bind fun _ => builds_bind fun _ =>
    builds_bind fun _ => builds_node

theorem builds_forRule [Text.CharacterNames] {isAsync : Bool} :
    Builds start (forRule g start isAsync) :=
  builds_bind fun _ => builds_bind fun _ => builds_bind fun _ => builds_bind fun _ =>
    builds_bind fun _ => builds_bind fun _ => builds_node

theorem builds_withRule [Text.CharacterNames] {isAsync : Bool} :
    Builds start (withRule g start isAsync) :=
  builds_bind fun _ => builds_bind fun _ => builds_bind fun _ => builds_node

/-- A statement that is read from its first line on. -/
theorem ReadsStatement.orders {f : Nat → Reader Node} (hr : ReadsStatement bottom (line >>= f))
    (h : ∀ start, Builds start (f start)) : Orders bottom at_ single (line >>= f) :=
  orders_of_builds hr (fun _ n hn => n.one_le_size.trans hn.size_le) h

include hg

theorem orders_expressionStatement : Orders bottom at_ single (expressionStatement g) := by
  refine (readsStatement_expressionStatement hg).orders fun start => builds_bind fun first =>
    builds_bind fun kind => ?_
  split
  · unfold annotated
    exact builds_ite (builds_bind fun _ => builds_bind fun _ => builds_bind fun _ => builds_node)
      builds_failure
  · refine builds_bind fun chain => builds_bind fun _ => builds_ite builds_failure ?_
    split
    · exact builds_node
    · exact builds_failure
  · split
    · exact builds_ite (builds_bind fun _ => builds_bind fun _ => builds_node) builds_failure
    · exact builds_node
  · exact builds_node

variable [Text.CharacterNames]

theorem orders_simpleStatement : Orders bottom at_ single (simpleStatement g) := by
  have hbare : ∀ {word : String} {label : Label}, Orders bottom at_ single (bareRule word label) :=
    readsStatement_bareRule.orders fun _ => builds_bind fun _ => builds_node
  have hnames : ∀ {word : String} {label : List String → Label},
      Orders bottom at_ single (namesRule word label) :=
    readsStatement_namesRule.orders fun _ => builds_bind fun _ => builds_bind fun _ => builds_node
  refine orders_peek_bind fun kind => ?_
  split
  · exact (readsStatement_returnRule hg).orders fun _ => builds_bind fun _ => builds_bind fun _ =>
      builds_node
  · exact readsStatement_importRule.orders fun _ => builds_bind fun _ => builds_bind fun _ =>
      builds_node
  · exact readsStatement_importFromRule.orders fun _ => builds_bind fun _ => builds_bind fun _ =>
      builds_bind fun _ =>
      builds_bind fun _ => builds_bind fun _ => builds_node
  · refine (readsStatement_raiseRule hg).orders fun _ => builds_bind fun _ =>
      builds_bind fun exception => ?_
    split
    · exact builds_node
    · exact builds_bind fun _ => builds_node
  · exact hbare
  · refine (readsStatement_deleteRule hg).orders fun _ => builds_bind fun _ => builds_bind fun _ =>
      builds_bind fun _ =>
      builds_bind fun kind => ?_
    split
    · exact builds_node
    · exact builds_node
    · exact builds_failure
  · exact (readsStatement_yieldRule hg).orders fun _ => builds_bind fun _ => builds_node
  · exact (readsStatement_assertRule hg).orders fun _ => builds_bind fun _ => builds_bind fun _ =>
      builds_bind fun _ => builds_node
  · exact hbare
  · exact hbare
  · exact hnames
  · exact hnames
  · exact orders_expressionStatement hg

theorem orders_simpleStatements : Orders bottom anywhere id (simpleStatements g) := by
  have hreads := readsStatement_simpleStatement hg
  refine ((orders_simpleStatement hg).separated hreads).bind hreads.separatedNodes fun found => ?_
  refine yields_discard_anyway fun _ => yields_expect_bind rfl (yields_pure fun lo hi hfound => ?_)
  rwa [List.flatMap_singleton'] at hfound

theorem orders_ifRule : Orders bottom at_ single (ifRule g) := by
  have hbranches : ∀ fuel, Orders bottom at_ single (ifBranches g "if" (fuel + 1)) := fun fuel =>
    ReadsStatement.orders (readsStatement_ifBranches hg "if" (fuel + 1)) fun _ =>
      builds_bind fun _ => builds_bind fun _ => builds_bind fun _ => builds_bind fun _ =>
        builds_node
  intro c n c' hc hat hrun
  exact hbranches c.tokens.length c n c' hc hat hrun

theorem orders_tryRule : Orders bottom at_ single (tryRule g) := by
  refine (readsStatement_tryRule hg).orders fun _ => builds_bind fun _ => builds_bind fun _ =>
    builds_bind fun _ => builds_ite ?_ ?_
  · exact builds_bind fun _ => builds_node
  · exact builds_bind fun _ => builds_bind fun _ => builds_bind fun _ => builds_bind fun _ =>
      builds_node

theorem orders_asyncRule : Orders bottom at_ single (asyncRule g) := by
  refine (readsStatement_asyncRule hg).orders fun _ => builds_bind fun _ =>
    builds_bind fun kind => ?_
  split
  · exact builds_functionRule
  · exact builds_withRule
  · exact builds_forRule
  · exact builds_failure

/-- A function or class starts below its decorators. -/
theorem orders_decorated : Orders bottom at_ single (decorated g) := by
  refine (yields_decorators hg).orders_bind fun k decorators hdecorators =>
    orders_line_bind fun start hstart => orders_peek_bind fun kind => ?_
  have hpaid : ∀ m n, Node.Costs bottom 0 (k + m) n ∧ 8 ≤ m → 1 ≤ m := fun m _ hm => by omega
  unfold definition
  split
  · exact builds_functionRule.orders (yields_functionRule hg hstart hdecorators) hpaid
  · refine (builds_bind fun _ => builds_functionRule).orders (yields_discard_next fun p => ?_) hpaid
    exact (yields_functionRule hg hstart hdecorators).mono fun m n hn =>
      ⟨hn.1.mono (by omega), by omega⟩
  · refine orders_of_builds (yields_classRule hg hdecorators) hpaid fun _ => ?_
    exact builds_bind fun _ => builds_bind fun _ => builds_bind fun _ => builds_bind fun _ =>
      builds_node
  · exact orders_failure

theorem orders_matchRule : Orders bottom at_ single (matchRule g) :=
  (readsStatement_matchRule hg).orders fun _ => builds_bind fun _ => builds_bind fun _ =>
    builds_bind fun _ => builds_bind fun _ =>
    builds_bind fun _ => builds_bind fun _ => builds_bind fun _ => builds_node

theorem orders_whileRule : Orders bottom at_ single (whileRule g) :=
  (readsStatement_whileRule hg).orders fun _ => builds_bind fun _ => builds_bind fun _ =>
    builds_bind fun _ => builds_bind fun _ =>
    builds_node

theorem orders_statementRule : Orders bottom anywhere id (statementRule g) := by
  have hsingle : ∀ {start : Nat} {r : Reader Node}, ReadsStatement bottom r →
      Orders bottom (·.StartsAt start) single r →
      Orders bottom (·.StartsAt start) id (do return [← r]) :=
        fun hr h => h.bind hr fun n => yields_pure fun _ _ hn => hn
  -- a statement is at least one node, so at least one token pays for it
  have hpaid : ∀ m n, Node.Costs bottom 0 m n → 1 ≤ m :=
    fun _ n hn => n.one_le_size.trans hn.size_le
  refine orders_line_bind fun start hstart => orders_peek_bind fun kind => ?_
  have hdecorated : Orders bottom (·.StartsAt start) id (do return [← decorated g]) :=
    hsingle (readsStatement_decorated hg) (orders_decorated hg)
  dsimp only
  split
  · exact hdecorated
  · exact hdecorated
  · exact hdecorated
  · exact hsingle (readsStatement_asyncRule hg) (orders_asyncRule hg)
  · exact hsingle (readsStatement_ifRule hg) (orders_ifRule hg)
  · exact hsingle (readsStatement_withRule hg hstart)
      (builds_withRule.orders (readsStatement_withRule hg hstart) hpaid)
  · exact hsingle (readsStatement_forRule hg hstart)
      (builds_forRule.orders (readsStatement_forRule hg hstart) hpaid)
  · exact hsingle (readsStatement_tryRule hg) (orders_tryRule hg)
  · exact hsingle (readsStatement_whileRule hg) (orders_whileRule hg)
  · exact (hsingle (readsStatement_matchRule hg) (orders_matchRule hg)).orElse
      ((orders_simpleStatements hg).at _)
  · exact (orders_simpleStatements hg).at _

omit hg in
theorem orders_program (bottom fuel : Nat) :
    Orders bottom anywhere Node.children (program fuel) := by
  have hg := bounded_upTo bottom fuel
  have hreads := yields_statementRule hg
  have hlines : Yields bottom (many (statementRule (upTo fuel))) fun _ _ => True :=
    hreads.many trivial fun _ _ _ _ _ _ => trivial
  refine ((orders_statementRule hg).many hreads).bind hlines fun found =>
    yields_expect_bind rfl (yields_pure fun lo hi hfound => ?_)
  rw [List.flatMap_id] at hfound
  exact hfound.map_as .body

end Grammar

variable [Text.CharacterNames]

/-- **The statements of a module** stand on the lines of its text, one after the other. -/
theorem parse_inOrder {text : String} {tree : Node} (h : parse text = some tree) :
    Node.InOrder 0 tree.children (lineBreaks (closeLastLine text.toList)) := by
  obtain ⟨tokens, htokens, h⟩ := Option.bind_eq_some_iff.mp h
  obtain ⟨⟨found, c'⟩, hrun, heq⟩ := Option.bind_eq_some_iff.mp h
  cases heq
  have hc := Cursor.within_of_tokens? htokens
  obtain ⟨k, htakes, -⟩ := (Grammar.yields_program _ _).run hc hrun
  exact (Grammar.orders_program _ _ _ _ _ hc trivial hrun).mono_right (htakes.within hc).1.lastLine

end Scorecard.Source
