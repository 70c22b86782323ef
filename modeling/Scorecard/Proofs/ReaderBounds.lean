import Scorecard.Proofs.TokenBounds

set_option autoImplicit false

/-! # What readers spend

A reader of tokens pays for the nodes that it builds with the tokens that it takes, one by one
(`Cursor.Takes`). `Reader.Yields` says what is known of a result and of the price of the tokens
taken for it. It is closed under the ways in which readers are put together, so that the bound on a
grammar follows rule by rule (`Proofs/GrammarBounds.lean`).

A name costs eight and is a node of size one. Six of the rest are left over for what is built around
an expression without a token of its own, such as the statement that consists of it.
-/

namespace Scorecard.Source

/-! ## Labels -/

/-- Whether nodes with a label may have children: all may but a list of global names. -/
def Label.mayBranch : Label → Bool
  | .globalStmt _ => false
  | _ => true

theorem Label.ne_globalStmt {label : Label} (h : label.mayBranch = true) (names : List String) :
    label ≠ .globalStmt names := by
  rintro rfl
  exact Bool.false_ne_true h

/-! ## Sizes of trees -/

namespace Node

@[simp]
theorem walkAll_append (ns ms : List Node) : walkAll (ns ++ ms) = walkAll ns ++ walkAll ms := by
  induction ns with
  | nil => rfl
  | cons n ns ih => rw [List.cons_append, walkAll, walkAll, ih, List.append_assoc]

/-- The number of nodes of a tree. -/
def size (n : Node) : Nat := n.walk.length

/-- The number of nodes of some trees. -/
def sizeAll (ns : List Node) : Nat := (walkAll ns).length

@[simp]
theorem sizeAll_nil : sizeAll [] = 0 := rfl

@[simp]
theorem sizeAll_cons (n : Node) (ns : List Node) : sizeAll (n :: ns) = n.size + sizeAll ns := by
  rw [sizeAll, walkAll, List.length_append, size, sizeAll]

@[simp]
theorem sizeAll_append (ns ms : List Node) : sizeAll (ns ++ ms) = sizeAll ns + sizeAll ms := by
  rw [sizeAll, walkAll_append, List.length_append, sizeAll, sizeAll]

@[simp]
theorem size_mk (role : Role) (label : Label) (line lastLine : Nat) (children : List Node) :
    (mk role label line lastLine children).size = sizeAll children + 1 := by
  rw [size, walk, List.length_cons, sizeAll]

theorem one_le_size (n : Node) : 1 ≤ n.size := by
  cases n
  rw [size_mk]
  exact Nat.le_add_left _ _

@[simp]
theorem size_as (role : Role) (n : Node) : (n.as role).size = n.size := by
  cases n
  simp [Node.as]

@[simp]
theorem sizeAll_map_as (role : Role) (ns : List Node) :
    sizeAll (ns.map (·.as role)) = sizeAll ns := by
  induction ns with
  | nil => rfl
  | cons n ns ih => rw [List.map_cons, sizeAll_cons, sizeAll_cons, size_as, ih]

/-! ## Places of nodes -/

/-- A node lies on the lines up to `bottom`; a list of global names has no children. -/
structure Placed (bottom : Nat) (n : Node) : Prop where
  line : n.line ≤ bottom
  lastLine : n.lastLine ≤ bottom
  globals : ∀ names, n.label = .globalStmt names → n.children = []

/-- All nodes of a tree are placed. -/
def Fits (bottom : Nat) (n : Node) : Prop := ∀ m ∈ n.walk, m.Placed bottom

theorem mem_walkAll {m : Node} {ns : List Node} : m ∈ walkAll ns ↔ ∃ n ∈ ns, m ∈ n.walk := by
  induction ns with
  | nil => simp [walkAll]
  | cons n ns ih => simp [walkAll, ih]

theorem fits_mk_iff {bottom : Nat} {role : Role} {label : Label} {line lastLine : Nat}
    {children : List Node} : (mk role label line lastLine children).Fits bottom ↔
      (mk role label line lastLine children).Placed bottom ∧ ∀ n ∈ children, n.Fits bottom := by
  simp only [Fits, walk, List.forall_mem_cons, mem_walkAll]
  exact and_congr_right fun _ => ⟨fun h n hn m hm => h m ⟨n, hn, hm⟩,
    fun h m ⟨n, hn, hm⟩ => h n hn m hm⟩

theorem fits_mk {bottom : Nat} {role : Role} {label : Label} {line lastLine : Nat}
    {children : List Node} (hlabel : label.mayBranch = true) (hline : line ≤ bottom)
    (hlast : lastLine ≤ bottom) (hchildren : ∀ n ∈ children, n.Fits bottom) :
    (mk role label line lastLine children).Fits bottom :=
  fits_mk_iff.mpr ⟨⟨hline, hlast, fun names h => absurd h (Label.ne_globalStmt hlabel names)⟩,
    hchildren⟩

@[simp]
theorem fits_as_iff {bottom : Nat} {n : Node} {role : Role} :
    (n.as role).Fits bottom ↔ n.Fits bottom := by
  obtain ⟨role', label, line, lastLine, children⟩ := n
  simp only [Node.as, fits_mk_iff]
  exact and_congr_left fun _ => ⟨fun h => ⟨h.line, h.lastLine, h.globals⟩,
    fun h => ⟨h.line, h.lastLine, h.globals⟩⟩

/-- A tree on the lines up to `bottom` that costs at most `k` and leaves `spare` of it over. -/
structure Costs (bottom spare k : Nat) (n : Node) : Prop where
  fits : n.Fits bottom
  size_le : n.size + spare ≤ k

/-- Trees that cost at most `k` together, where each leaves `spare` over. -/
structure AllCost (bottom spare k : Nat) (ns : List Node) : Prop where
  fits : ∀ n ∈ ns, n.Fits bottom
  size_le : sizeAll ns + spare * ns.length ≤ k

section

variable {bottom spare spare' k m : Nat} {n : Node} {ns ms : List Node}

theorem Costs.mono (h : n.Costs bottom spare k) (hle : k + spare' ≤ m + spare) :
    n.Costs bottom spare' m :=
  ⟨h.fits, by have := h.size_le; omega⟩

theorem Costs.as (h : n.Costs bottom spare k) (role : Role) : (n.as role).Costs bottom spare k :=
  ⟨fits_as_iff.mpr h.fits, by rw [size_as]; exact h.size_le⟩

theorem AllCost.nil : AllCost bottom spare 0 [] := ⟨by simp, by simp⟩

theorem AllCost.mono (h : AllCost bottom spare k ns) (hle : k ≤ m) : AllCost bottom spare m ns :=
  ⟨h.fits, h.size_le.trans hle⟩

theorem AllCost.cons (h : n.Costs bottom spare k) (hs : AllCost bottom spare m ns) :
    AllCost bottom spare (k + m) (n :: ns) where
  fits := List.forall_mem_cons.mpr ⟨h.fits, hs.fits⟩
  size_le := by
    have hn := h.size_le
    have hns := hs.size_le
    rw [sizeAll_cons, List.length_cons, Nat.mul_succ]
    omega

theorem AllCost.append (h : AllCost bottom spare k ns) (h' : AllCost bottom spare m ms) :
    AllCost bottom spare (k + m) (ns ++ ms) where
  fits := List.forall_mem_append.mpr ⟨h.fits, h'.fits⟩
  size_le := by
    have hns := h.size_le
    have hms := h'.size_le
    rw [sizeAll_append, List.length_append, Nat.mul_add]
    omega

theorem AllCost.map_as (h : AllCost bottom spare k ns) (role : Role) :
    AllCost bottom spare k (ns.map (·.as role)) where
  fits := by
    intro n hn
    obtain ⟨n', hn', rfl⟩ := List.mem_map.mp hn
    exact fits_as_iff.mpr (h.fits n' hn')
  size_le := by
    rw [sizeAll_map_as, List.length_map]
    exact h.size_le

theorem sizeAll_perm (h : ns.Perm ms) : sizeAll ns = sizeAll ms := by
  induction h with
  | nil => rfl
  | cons n _ ih => rw [sizeAll_cons, sizeAll_cons, ih]
  | swap n n' ns =>
      simp only [sizeAll_cons]
      omega
  | trans _ _ ih ih' => exact ih.trans ih'

theorem AllCost.perm (h : AllCost bottom spare k ns) (hperm : ns.Perm ms) :
    AllCost bottom spare k ms where
  fits n hn := h.fits n (hperm.mem_iff.mpr hn)
  size_le := by
    rw [← sizeAll_perm hperm, ← hperm.length_eq]
    exact h.size_le

theorem sizeAll_le_of_sublist (h : ms.Sublist ns) : sizeAll ms ≤ sizeAll ns := by
  induction h with
  | slnil => exact le_refl _
  | cons n _ ih =>
      rw [sizeAll_cons]
      exact ih.trans (Nat.le_add_left _ _)
  | cons_cons n _ ih =>
      rw [sizeAll_cons, sizeAll_cons]
      exact Nat.add_le_add_left ih _

theorem AllCost.sublist (h : AllCost bottom 0 k ns) (hsub : ms.Sublist ns) :
    AllCost bottom 0 k ms where
  fits n hn := h.fits n (hsub.subset hn)
  size_le := by
    have hsize := h.size_le
    have hle := sizeAll_le_of_sublist hsub
    omega

theorem AllCost.drop (h : AllCost bottom spare k ns) : AllCost bottom 0 k ns :=
  ⟨h.fits, by have := h.size_le; omega⟩

/-- A tree among the children of a node. -/
theorem Costs.child (h : n.Costs bottom spare k) (role : Role) (hs : AllCost bottom 0 m ns) :
    AllCost bottom 0 (k + m) (n.as role :: ns) := AllCost.cons ((h.as role).mono (by omega)) hs

/-- Trees in one role among the children of a node. -/
theorem AllCost.children (h : AllCost bottom spare k ns) (role : Role) :
    AllCost bottom 0 k (ns.map (·.as role)) where
  fits := (h.map_as role).fits
  size_le := by
    have hsize := h.size_le
    rw [sizeAll_map_as]
    omega

/-- Trees in two roles. -/
theorem AllCost.roles (h : AllCost bottom spare k (ns ++ ms)) (role role' : Role) :
    AllCost bottom 0 k (ns.map (·.as role) ++ ms.map (·.as role')) where
  fits := by
    have hfits := h.fits
    simp only [List.forall_mem_append, List.forall_mem_map, fits_as_iff] at hfits ⊢
    exact hfits
  size_le := by
    have hsize := h.drop.size_le
    simp only [sizeAll_append, sizeAll_map_as, Nat.zero_mul, Nat.add_zero] at hsize ⊢
    exact hsize

theorem Costs.single (h : n.Costs bottom spare k) : AllCost bottom spare k [n] :=
  AllCost.cons h .nil

theorem Costs.alone (h : n.Costs bottom spare k) : AllCost bottom 0 k [n] :=
  (h.mono (Nat.le_add_right _ _)).single

theorem AllCost.uncons (h : AllCost bottom 0 k (n :: ns)) :
    ∃ p q, n.Costs bottom 0 p ∧ AllCost bottom 0 q ns ∧ p + q ≤ k := by
  obtain ⟨hn, hns⟩ := List.forall_mem_cons.mp h.fits
  have hsize := h.size_le
  rw [sizeAll_cons] at hsize
  exact ⟨n.size, sizeAll ns, ⟨hn, le_refl _⟩, ⟨hns, by omega⟩, by omega⟩

theorem AllCost.head (h : AllCost bottom spare k [n]) : n.Costs bottom spare k :=
  ⟨h.fits n (by simp), by simpa using h.size_le⟩

end

end Node

/-! ## Readers -/

namespace Cursor

/-- What the tokens ahead are worth. -/
def funds (c : Cursor) : Nat := prices c.tokens

/-- The tokens ahead lie on the lines up to `bottom`, one after the other, and after the last one
taken. -/
structure Within (bottom : Nat) (c : Cursor) : Prop where
  tokens : ∀ t ∈ c.tokens, t.Within bottom
  inOrder : c.tokens.Pairwise Token.Before
  below : ∀ t ∈ c.tokens, c.lastLine ≤ t.line
  lastLine : c.lastLine ≤ bottom

/-- The kind of the token ahead. -/
def kind (c : Cursor) : TokenKind :=
  match c.tokens with
  | t :: _ => t.kind
  | [] => .done

/-- The cursor after the token `t`, which was ahead of it. -/
def past (t : Token) (rest : List Token) (lastLine : Nat) : Cursor :=
  { tokens := rest, lastLine := if Reader.isMark t.kind then lastLine else t.lastLine }

/-- One cursor is reached from another by taking tokens of price `k`. -/
inductive Takes : Cursor → Nat → Cursor → Prop
  | none (c : Cursor) : Takes c 0 c
  | next {t : Token} {rest : List Token} {lastLine k : Nat} {c' : Cursor}
      (h : Takes (past t rest lastLine) k c') : Takes ⟨t :: rest, lastLine⟩ (t.kind.price + k) c'

/-- Taking a token leads further down. -/
theorem Within.past {bottom lastLine : Nat} {t : Token} {rest : List Token}
    (h : Within bottom ⟨t :: rest, lastLine⟩) :
    (past t rest lastLine).Within bottom ∧ lastLine ≤ (past t rest lastLine).lastLine := by
  obtain ⟨ht, hrest⟩ := List.forall_mem_cons.mp h.tokens
  obtain ⟨hbefore, hinOrder⟩ := List.pairwise_cons.mp h.inOrder
  obtain ⟨htBelow, hrestBelow⟩ := List.forall_mem_cons.mp h.below
  by_cases hmark : Reader.isMark t.kind = true
  · have hpast : Cursor.past t rest lastLine = ⟨rest, lastLine⟩ := by rw [Cursor.past, if_pos hmark]
    rw [hpast]
    exact ⟨⟨hrest, hinOrder, hrestBelow, h.lastLine⟩, le_refl _⟩
  · have hpast : Cursor.past t rest lastLine = ⟨rest, t.lastLine⟩ := by
      rw [Cursor.past, if_neg hmark]
    rw [hpast]
    exact ⟨⟨hrest, hinOrder, hbefore, ht.lastLine (Bool.eq_false_iff.mpr hmark)⟩,
      htBelow.trans ht.ordered⟩

/-- The token ahead is on the line `start` and is no mark. -/
def StartsAt (c : Cursor) (start : Nat) : Prop :=
  ∃ t rest, c.tokens = t :: rest ∧ Reader.isMark t.kind = false ∧ t.line = start

theorem StartsAt.le_bottom {bottom start : Nat} {c : Cursor} (h : c.StartsAt start)
    (hc : c.Within bottom) : start ≤ bottom := by
  obtain ⟨t, rest, htokens, hmark, rfl⟩ := h
  have ht := hc.tokens t (by rw [htokens]; exact List.mem_cons_self)
  exact ht.ordered.trans (ht.lastLine hmark)

namespace Takes

variable {bottom k m : Nat} {c c' c'' : Cursor}

theorem trans (h : c.Takes k c') (h' : c'.Takes m c'') : c.Takes (k + m) c'' := by
  induction h with
  | none c => rwa [Nat.zero_add]
  | next _ ih =>
      rw [Nat.add_assoc]
      exact (ih h').next

theorem funds_eq (h : c.Takes k c') : c.funds = k + c'.funds := by
  induction h with
  | none c => exact (Nat.zero_add _).symm
  | next _ ih =>
      rw [Cursor.funds, prices_cons, Nat.add_assoc, ← ih]
      rfl

/-- Readers go down. -/
theorem within (h : c.Takes k c') (hc : c.Within bottom) :
    c'.Within bottom ∧ c.lastLine ≤ c'.lastLine := by
  induction h with
  | none c => exact ⟨hc, le_refl _⟩
  | next _ ih =>
      obtain ⟨hpast, hle⟩ := hc.past
      obtain ⟨hc', hle'⟩ := ih hpast
      exact ⟨hc', hle.trans hle'⟩

end Takes

/-- The cursor at the start of a text. -/
theorem within_of_tokens? {cs : List Char} {tokens : List Token} (h : tokens? 1 cs = some tokens) :
    Within (lineBreaks (closeLastLine cs)) { tokens, lastLine := 0 } := by
  have hlexed := (tokens?_bounds h).1
  exact
    { tokens := fun t ht => (hlexed.within t ht).mono (by dsimp only; omega)
      inOrder := hlexed.inOrder
      below := fun _ _ => Nat.zero_le _
      lastLine := Nat.zero_le _ }

end Cursor

namespace Reader

open Node (Costs AllCost)

variable {bottom spare : Nat} {α β : Type}

/-- The results of a reader where the token ahead is of a kind: `post k a` holds if `a` is read from
tokens of price `k`. -/
def YieldsAt (bottom : Nat) (kind : TokenKind) (r : Reader α) (post : Nat → α → Prop) : Prop :=
  ∀ c a c', c.Within bottom → c.kind = kind → r c = some (a, c') → ∃ k, c.Takes k c' ∧ post k a

/-- The results of a reader: `post k a` holds if `a` is read from tokens of price `k`. -/
def Yields (bottom : Nat) (r : Reader α) (post : Nat → α → Prop) : Prop :=
  ∀ kind, YieldsAt bottom kind r post

theorem Yields.run {r : Reader α} {post : Nat → α → Prop} (h : Yields bottom r post) {c c' : Cursor}
    {a : α} (hc : c.Within bottom) (hrun : r c = some (a, c')) : ∃ k, c.Takes k c' ∧ post k a :=
  h _ c a c' hc rfl hrun

theorem bind_eq_some_iff {r : Reader α} {f : α → Reader β} {c c'' : Cursor} {b : β} :
    (r >>= f) c = some (b, c'') ↔ ∃ a c', r c = some (a, c') ∧ f a c' = some (b, c'') :=
  Option.bind_eq_some_iff.trans Prod.exists

theorem orElse_eq_some {r s : Reader α} {c c' : Cursor} {a : α} (h : (r <|> s) c = some (a, c')) :
    r c = some (a, c') ∨ s c = some (a, c') := by
  have heq : (r <|> s) c = (r c <|> s c) := rfl
  rw [heq] at h
  cases hfirst : r c with
  | some found =>
      rw [hfirst] at h
      exact .inl h
  | none =>
      rw [hfirst] at h
      exact .inr h

section Combinators

variable {r s : Reader α} {f : α → Reader β} {P P' : Nat → α → Prop} {Q : Nat → β → Prop}
  {kind : TokenKind}

theorem YieldsAt.mono (h : YieldsAt bottom kind r P) (himp : ∀ k a, P k a → P' k a) :
    YieldsAt bottom kind r P' := by
  intro c a c' hc hkind hrun
  obtain ⟨k, hk, ha⟩ := h c a c' hc hkind hrun
  exact ⟨k, hk, himp k a ha⟩

theorem Yields.mono (h : Yields bottom r P) (himp : ∀ k a, P k a → P' k a) : Yields bottom r P' :=
  fun kind => (h kind).mono himp

theorem yields_pure {a : α} (h : P 0 a) : Yields bottom (pure a) P := by
  intro kind c a' c' hc _ hrun
  cases hrun
  exact ⟨0, .none c, h⟩

theorem yieldsAt_pure {a : α} (h : P 0 a) : YieldsAt bottom kind (pure a) P := yields_pure h kind

theorem yields_failure : Yields bottom (failure : Reader α) P := by
  intro kind c a c' _ _ hrun
  cases hrun

theorem YieldsAt.bind (h : YieldsAt bottom kind r P)
    (hf : ∀ k a, P k a → Yields bottom (f a) fun m b => Q (k + m) b) :
    YieldsAt bottom kind (r >>= f) Q := by
  intro c b c'' hc hkind hrun
  obtain ⟨a, c', hfirst, hrest⟩ := bind_eq_some_iff.mp hrun
  obtain ⟨k, hk, ha⟩ := h c a c' hc hkind hfirst
  obtain ⟨m, hm, hb⟩ := (hf k a ha).run (hk.within hc).1 hrest
  exact ⟨k + m, hk.trans hm, hb⟩

theorem Yields.bind (h : Yields bottom r P)
    (hf : ∀ k a, P k a → Yields bottom (f a) fun m b => Q (k + m) b) :
    Yields bottom (r >>= f) Q := fun kind => (h kind).bind hf

theorem Yields.map {g : α → β} (h : Yields bottom r P) (hg : ∀ k a, P k a → Q k (g a)) :
    Yields bottom (g <$> r) Q := by
  intro kind c b c' hc hkind hrun
  obtain ⟨⟨a, _⟩, hfirst, hrest⟩ := Option.bind_eq_some_iff.mp hrun
  cases hrest
  obtain ⟨k, hk, ha⟩ := h kind c a c' hc hkind hfirst
  exact ⟨k, hk, hg k a ha⟩

theorem Yields.orElse (h : Yields bottom r P) (h' : Yields bottom s P) :
    Yields bottom (r <|> s) P := by
  intro kind c a c' hc hkind hrun
  rcases orElse_eq_some hrun with hrun | hrun
  · exact h kind c a c' hc hkind hrun
  · exact h' kind c a c' hc hkind hrun

theorem Yields.optional {P : Nat → Option α → Prop} (h : Yields bottom r fun k a => P k (some a))
    (hnone : P 0 none) : Yields bottom (Reader.optional r) P :=
  (h.map fun _ _ ha => ha).orElse (yields_pure hnone)

end Combinators

/-! ## Single tokens -/

section Primitives

variable {f : α → Reader β} {P : Nat → α → Prop} {Q : Nat → β → Prop} {kind : TokenKind}

/-- The token ahead is taken for its price. -/
theorem yieldsAt_next : YieldsAt bottom kind next fun k found => found = kind ∧ k = kind.price := by
  intro c found c' hc hkind hrun
  obtain ⟨tokens, lastLine⟩ := c
  cases tokens with
  | nil => cases hrun
  | cons t rest =>
      cases hrun
      exact ⟨t.kind.price, (Cursor.Takes.none _).next, hkind, congrArg TokenKind.price hkind⟩

theorem yields_next : Yields bottom next fun k found => k = found.price := fun _ =>
  yieldsAt_next.mono fun _ _ h => by rw [h.2, h.1]

theorem yieldsAt_discard_next :
    YieldsAt bottom kind (discard next) fun k (_ : PUnit) => k = kind.price := by
  intro c a c' hc hkind hrun
  obtain ⟨⟨found, _⟩, hfirst, hrest⟩ := Option.bind_eq_some_iff.mp hrun
  cases hrest
  obtain ⟨k, hk, -, hprice⟩ := yieldsAt_next c found c' hc hkind hfirst
  exact ⟨k, hk, hprice⟩

/-- Taking the token ahead, of which the kind is known. -/
theorem yieldsAt_next_bind {r : Reader β} {k : Nat} (hk : kind.price = k)
    (h : Yields bottom r fun m b => Q (k + m) b) :
    YieldsAt bottom kind (discard next >>= fun _ => r) Q :=
  yieldsAt_discard_next.bind fun _ _ hk' => (hk'.trans hk) ▸ h

/-- Taking a name, a word, a number or a symbol that was seen ahead. -/
theorem yieldsAt_take_bind {r : Reader β} (hk : kind.price = 8)
    (h : Yields bottom r fun m b => Q (8 + m) b) :
    YieldsAt bottom kind (discard next >>= fun _ => r) Q := yieldsAt_next_bind hk h

/-- Taking the token ahead, whatever it is. -/
theorem yields_discard_next {r : Reader β} (h : ∀ k, Yields bottom r fun m b => Q (k + m) b) :
    Yields bottom (discard next >>= fun _ => r) Q :=
  fun _ => yieldsAt_discard_next.bind fun k _ _ => h k

theorem peek_run (ahead : Nat) (c : Cursor) :
    peek ahead c = some (((c.tokens.drop ahead).head?.map Token.kind).getD .done, c) := by
  simp only [peek, bind, StateT.bind, get, getThe, MonadStateOf.get, StateT.get, pure,
    Option.bind_some]
  cases c.tokens.drop ahead <;> rfl

/-- What is ahead can be looked at for free, and stays ahead. -/
theorem yieldsAt_peek_bind {f : TokenKind → Reader β} {ahead : Nat}
    (h : ∀ found, YieldsAt bottom kind (f found) Q) :
    YieldsAt bottom kind (peek ahead >>= f) Q := by
  intro c b c' hc hkind hrun
  obtain ⟨found, _, hfirst, hrest⟩ := bind_eq_some_iff.mp hrun
  rw [peek_run] at hfirst
  cases hfirst
  exact h _ c b c' hc hkind hrest

theorem yields_peek_bind {f : TokenKind → Reader β} (h : ∀ kind, YieldsAt bottom kind (f kind) Q) :
    Yields bottom (peek >>= f) Q := by
  intro kind c b c' hc hkind hrun
  obtain ⟨found, _, hfirst, hrest⟩ := bind_eq_some_iff.mp hrun
  rw [peek_run] at hfirst
  cases hfirst
  refine h _ c b c' hc ?_ hrest
  obtain ⟨_ | ⟨t, rest⟩, lastLine⟩ := c <;> rfl

theorem line_eq_some_iff {c c' : Cursor} {start : Nat} :
    line c = some (start, c') ↔ c = c' ∧ c.StartsAt start := by
  obtain ⟨_ | ⟨t, rest⟩, lastLine⟩ := c
  · constructor
    · intro h
      cases h
    · rintro ⟨-, t, rest, heq, -⟩
      cases heq
  · have hline :
        line ⟨t :: rest, lastLine⟩ = if isMark t.kind then none
          else some (t.line, ⟨t :: rest, lastLine⟩) := by
      show (if isMark t.kind then failure else pure t.line : Reader Nat) _ = _
      split <;> rfl
    rw [hline]
    constructor
    · intro h
      split at h
      · cases h
      · rename_i hmark
        cases h
        exact ⟨rfl, t, rest, rfl, Bool.eq_false_iff.mpr hmark, rfl⟩
    · rintro ⟨rfl, t, rest, heq, hmark, rfl⟩
      cases heq
      rw [hmark]
      rfl

/-- A first line of something read from here. -/
theorem yieldsAt_line_bind {f : Nat → Reader β}
    (h : ∀ start, start ≤ bottom → YieldsAt bottom kind (f start) Q) :
    YieldsAt bottom kind (line >>= f) Q := by
  intro c b c' hc hkind hrun
  obtain ⟨start, _, hfirst, hrest⟩ := bind_eq_some_iff.mp hrun
  obtain ⟨rfl, hstart⟩ := line_eq_some_iff.mp hfirst
  exact h start (hstart.le_bottom hc) c b c' hc hkind hrest

theorem yields_line_bind {f : Nat → Reader β}
    (h : ∀ start, start ≤ bottom → Yields bottom (f start) Q) :
    Yields bottom (line >>= f) Q :=
  fun kind => yieldsAt_line_bind fun start hstart => h start hstart kind

theorem yields_get_bind {f : Cursor → Reader β}
    (h : ∀ c : Cursor, c.lastLine ≤ bottom → Yields bottom (f c) Q) :
    Yields bottom (get >>= f) Q := by
  intro kind c b c' hc hkind hrun
  exact h c hc.lastLine kind c b c' hc hkind hrun

/-- Expecting a token costs its price. -/
theorem yields_expect {expected : TokenKind} :
    Yields bottom (expect expected) fun k _ => k = expected.price := by
  refine yields_peek_bind fun kind => ?_
  split
  · rename_i heq
    exact yieldsAt_discard_next.mono fun _ _ hprice => by rw [hprice, heq]
  · exact yields_failure kind

theorem yields_expect_bind {expected : TokenKind} {r : Reader β} {k : Nat} (hk : expected.price = k)
    (h : Yields bottom r fun m b => Q (k + m) b) :
    Yields bottom (expect expected >>= fun _ => r) Q :=
  yields_expect.bind fun _ _ hk' => (hk'.trans hk) ▸ h

theorem yields_symbol_bind {s : String} {r : Reader β}
    (h : Yields bottom r fun m b => Q (8 + m) b) :
    Yields bottom (symbol s >>= fun _ => r) Q := yields_expect_bind rfl h

theorem yields_keyword_bind {w : String} {r : Reader β}
    (h : Yields bottom r fun m b => Q (8 + m) b) :
    Yields bottom (keyword w >>= fun _ => r) Q := yields_expect_bind rfl h

/-- Accepting a token costs its price if it is there. -/
theorem yields_accept_bind {expected : TokenKind} {f : Bool → Reader β} {k : Nat}
    (hk : expected.price = k) (htrue : Yields bottom (f true) fun m b => Q (k + m) b)
    (hfalse : Yields bottom (f false) Q) :
    Yields bottom (accept expected >>= f) Q := by
  have haccept : Yields bottom (accept expected) fun k' found => k' = if found then k else 0 := by
    refine yields_peek_bind fun kind => ?_
    split
    · rename_i heq
      exact yieldsAt_next_bind (by rw [heq, hk]) (yields_pure (Nat.add_zero k))
    · exact yieldsAt_pure rfl
  refine haccept.bind fun k' found hk' => ?_
  cases found with
  | true => exact hk' ▸ htrue
  | false =>
      rw [hk']
      simpa using hfalse

theorem yields_acceptSymbol_bind {s : String} {f : Bool → Reader β}
    (htrue : Yields bottom (f true) fun m b => Q (8 + m) b) (hfalse : Yields bottom (f false) Q) :
    Yields bottom (acceptSymbol s >>= f) Q := yields_accept_bind rfl htrue hfalse

theorem yields_acceptSymbol_ite {s : String} {r t : Reader β}
    (htrue : Yields bottom r fun m b => Q (8 + m) b) (hfalse : Yields bottom t Q) :
    Yields bottom (acceptSymbol s >>= fun found => if found = true then r else t) Q :=
  yields_accept_bind rfl htrue hfalse

theorem yields_acceptKeyword_ite {w : String} {r t : Reader β}
    (htrue : Yields bottom r fun m b => Q (8 + m) b) (hfalse : Yields bottom t Q) :
    Yields bottom (acceptKeyword w >>= fun found => if found = true then r else t) Q :=
  yields_accept_bind rfl htrue hfalse

/-- A token that may stand here, whether it does or not. -/
theorem yields_anyway {expected : TokenKind} {f : Bool → Reader β}
    (h : ∀ k found, Yields bottom (f found) fun m b => Q (k + m) b) :
    Yields bottom (accept expected >>= f) Q := by
  refine yields_accept_bind rfl (h _ true) ?_
  simpa only [Nat.zero_add] using h 0 false

theorem yields_discard_anyway {expected : TokenKind} {r : Reader β}
    (h : ∀ k, Yields bottom r fun m b => Q (k + m) b) :
    Yields bottom (discard (accept expected) >>= fun _ => r) Q := by
  have haccept : Yields bottom (accept expected >>= pure) fun _ _ => True :=
    yields_anyway fun _ _ => yields_pure trivial
  rw [bind_pure] at haccept
  have hdiscard : Yields bottom (discard (accept expected)) fun _ _ => True :=
    haccept.map fun _ _ _ => trivial
  exact hdiscard.bind fun k _ _ => h k

/-- A question about the tokens ahead is free. -/
def IsQuestion (bottom : Nat) (r : Reader Bool) : Prop := Yields bottom r fun k _ => k = 0

theorem isQuestion_atSymbol (s : String) : IsQuestion bottom (atSymbol s) :=
  yields_peek_bind fun _ => yieldsAt_pure rfl

theorem isQuestion_atKeyword (w : String) : IsQuestion bottom (atKeyword w) :=
  yields_peek_bind fun _ => yieldsAt_pure rfl

theorem IsQuestion.bind {r : Reader Bool} {f : Bool → Reader β} (h : IsQuestion bottom r)
    (hf : ∀ answer, Yields bottom (f answer) Q) : Yields bottom (r >>= f) Q := by
  refine Yields.bind h fun k answer hk => ?_
  simpa only [hk, Nat.zero_add] using hf answer

theorem IsQuestion.ite {r : Reader Bool} {s t : Reader β} (h : IsQuestion bottom r)
    (htrue : Yields bottom s Q) (hfalse : Yields bottom t Q) :
    Yields bottom (r >>= fun answer => if answer = true then s else t) Q := by
  refine h.bind fun answer => ?_
  cases answer with
  | true => exact htrue
  | false => exact hfalse

theorem yields_identifier : Yields bottom identifier fun k _ => k = 8 := by
  refine yields_next.bind fun k found hk => ?_
  split
  · exact yields_pure hk
  · exact yields_failure

end Primitives

/-! ## Repetitions -/

section Repetitions

variable {r : Reader α} {P : Nat → α → Prop}

/-- Many results together satisfy what is true of none and stays true with one more. -/
theorem Yields.many {Q : Nat → List α → Prop} (h : Yields bottom r P) (hnil : Q 0 [])
    (hcons : ∀ k m a as, P k a → Q m as → Q (k + m) (a :: as)) : Yields bottom (many r) Q := by
  -- whatever the fuel is: where it ends, the items read so far have been paid for
  have hwithin : ∀ fuel c, c.Within bottom → ∃ k, c.Takes k (manyWithin r fuel c).2 ∧
      Q k (manyWithin r fuel c).1 := by
    intro fuel
    induction fuel with
    | zero => exact fun c hc => ⟨0, .none c, hnil⟩
    | succ fuel ih =>
        intro c hc
        rw [manyWithin]
        cases hrun : r.run c with
        | none => exact ⟨0, .none c, hnil⟩
        | some found =>
            obtain ⟨a, c'⟩ := found
            obtain ⟨k, hk, ha⟩ := h.run hc hrun
            obtain ⟨m, hm, has⟩ := ih c' (hk.within hc).1
            exact ⟨k + m, hk.trans hm, hcons k m a _ ha has⟩
  intro kind c as c' hc _ hrun
  have hfound := hwithin (c.tokens.length + 1) c hc
  rwa [show manyWithin r (c.tokens.length + 1) c = (as, c') from Option.some.inj hrun] at hfound

theorem Yields.many1 {Q : Nat → List α → Prop} (h : Yields bottom r P) (hnil : Q 0 [])
    (hcons : ∀ k m a as, P k a → Q m as → Q (k + m) (a :: as)) :
    Yields bottom (many1 r) fun k as => Q k as ∧ as ≠ [] :=
  h.bind fun k a ha => (h.many hnil hcons).bind fun m as has =>
    yields_pure ⟨hcons k m a as ha has, List.cons_ne_nil _ _⟩

/-- Items with a symbol between them, of which there is at least one. -/
theorem Yields.separated {Q : Nat → List α → Prop} {separator : String} (h : Yields bottom r P)
    (hsymbol : ∀ k a, P k a → P (8 + k) a) (hnil : Q 0 [])
    (hcons : ∀ k m a as, P k a → Q m as → Q (k + m) (a :: as)) :
    Yields bottom (Reader.separated separator r) fun k as => Q k as ∧ as ≠ [] := by
  have hmore : Yields bottom (do symbol separator; r) P := yields_symbol_bind (h.mono hsymbol)
  exact h.bind fun k a ha => (hmore.many hnil hcons).bind fun m as has =>
    yields_pure ⟨hcons k m a as ha has, List.cons_ne_nil _ _⟩

/-- What is left after a step stays true. -/
theorem yields_iterate {step : α → Reader α} {a : α} (ha : P 0 a)
    (hstep : ∀ k a, P k a → Yields bottom (step a) fun m b => P (k + m) b) :
    Yields bottom (iterate step a) P := by
  -- `k` is what the result so far has cost
  have hwithin : ∀ fuel k a c, c.Within bottom → P k a →
      ∃ m, c.Takes m (iterateWithin step fuel a c).2 ∧
        P (k + m) (iterateWithin step fuel a c).1 := by
    intro fuel
    induction fuel with
    | zero => exact fun k a c hc ha => ⟨0, .none c, ha⟩
    | succ fuel ih =>
        intro k a c hc ha
        rw [iterateWithin]
        cases hrun : (step a).run c with
        | none => exact ⟨0, .none c, ha⟩
        | some found =>
            obtain ⟨b, c'⟩ := found
            obtain ⟨m, hm, hb⟩ := (hstep k a ha).run hc hrun
            obtain ⟨m', hm', hlast⟩ := ih (k + m) b c' (hm.within hc).1 hb
            exact ⟨m + m', hm.trans hm', by rwa [← Nat.add_assoc]⟩
  intro kind c b c' hc _ hrun
  have hfound := hwithin (c.tokens.length + 1) 0 a c hc ha
  rw [show iterateWithin step (c.tokens.length + 1) a c =
    (b, c') from Option.some.inj hrun] at hfound
  simpa only [Nat.zero_add] using hfound

end Repetitions

/-! ## Nodes -/

section Nodes

variable {r : Reader Node} {k start : Nat} {label : Label} {children : List Node}
  {Q : Nat → Node → Prop}

/-- A node is one more than its children. -/
theorem yields_node_of_size (hlabel : label.mayBranch = true) (hstart : start ≤ bottom)
    (hchildren : ∀ n ∈ children, n.Fits bottom)
    (hpost : ∀ n : Node, n.Fits bottom → n.size = Node.sizeAll children + 1 → Q 0 n) :
    Yields bottom (node label start children) Q :=
  yields_get_bind fun _ hlast =>
    yields_pure (hpost _ (Node.fits_mk hlabel hstart hlast hchildren) (Node.size_mk ..))

/-- A node costs one more than its children. -/
theorem yields_node (hlabel : label.mayBranch = true) (hstart : start ≤ bottom)
    (hchildren : AllCost bottom 0 k children)
    (hpost : ∀ n : Node, n.Costs bottom 0 (k + 1) → Q 0 n) :
    Yields bottom (node label start children) Q := by
  refine yields_node_of_size hlabel hstart hchildren.fits fun n hfits hsize => hpost n ⟨hfits, ?_⟩
  have hle := hchildren.size_le
  omega

/-- A node without children may have any label. -/
theorem yields_leaf (hstart : start ≤ bottom) (hpost : ∀ n : Node, n.Costs bottom 0 1 → Q 0 n) :
    Yields bottom (node label start []) Q := by
  refine yields_get_bind fun c hlast => yields_pure
    (hpost _ ⟨Node.fits_mk_iff.mpr ⟨?_, List.forall_mem_nil _⟩, ?_⟩)
  · exact ⟨hstart, hlast, fun _ _ => rfl⟩
  · rw [Node.size_mk, Node.sizeAll_nil]

/-- A node without children for a token that was seen ahead. -/
theorem yieldsAt_leaf {kind : TokenKind} (hkind : kind.price = 8) (hstart : start ≤ bottom) :
    YieldsAt bottom kind (discard next >>= fun _ => node label start []) (Costs bottom 6) :=
  yieldsAt_take_bind hkind (yields_leaf hstart fun _ hn => hn.mono (by omega))

/-- A node within another one. -/
theorem yields_node_bind {f : Node → Reader β} {Q : Nat → β → Prop}
    (hlabel : label.mayBranch = true) (hstart : start ≤ bottom)
    (hchildren : AllCost bottom 0 k children)
    (hf : ∀ n : Node, n.Costs bottom 0 (k + 1) → Yields bottom (f n) Q) :
    Yields bottom (node label start children >>= f) Q := by
  have hnode : Yields bottom (node label start children) fun m n => m = 0 ∧
      n.Costs bottom 0 (k + 1) :=
    yields_node hlabel hstart hchildren fun n hn => ⟨rfl, hn⟩
  refine hnode.bind fun m n hn => ?_
  simpa only [hn.1, Nat.zero_add] using hf n hn.2

/-- Two or more trees pay for the node around them with what they leave over. -/
theorem yields_group {ns : List Node} {role : Role} (hlabel : label.mayBranch = true)
    (hstart : start ≤ bottom) (hchildren : AllCost bottom spare k ns) (hspare : 1 ≤ spare)
    (hlong : 2 ≤ ns.length) (hpost : ∀ n : Node, n.Costs bottom spare k → Q 0 n) :
    Yields bottom (node label start (ns.map (·.as role))) Q := by
  refine yields_node_of_size hlabel hstart (hchildren.children role).fits fun n hfits hsize => ?_
  refine hpost n ⟨hfits, ?_⟩
  have hle := hchildren.size_le
  have hmul : spare * 2 ≤ spare * ns.length := Nat.mul_le_mul_left _ hlong
  rw [hsize, Node.sizeAll_map_as]
  omega

theorem Yields.manyNodes (h : Yields bottom r (Costs bottom spare)) :
    Yields bottom (Reader.many r) (AllCost bottom spare) :=
  h.many AllCost.nil fun _ _ _ _ => AllCost.cons

theorem Yields.many1Nodes (h : Yields bottom r (Costs bottom spare)) :
    Yields bottom (Reader.many1 r) (AllCost bottom spare) :=
  (h.many1 AllCost.nil fun _ _ _ _ => AllCost.cons).mono fun _ _ => And.left

theorem Yields.optionalNodes (h : Yields bottom r (Costs bottom spare)) :
    Yields bottom (Reader.optional r) fun k n => AllCost bottom spare k n.toList :=
  (h.mono fun _ _ hn => hn.single).optional AllCost.nil

theorem Yields.followingNodes {kind : TokenKind} (h : Yields bottom r (Costs bottom spare)) :
    Yields bottom (Reader.following kind r) fun k n => AllCost bottom spare k n.toList :=
  yields_accept_bind rfl (h.map fun _ _ hn => (hn.mono (by omega)).single) (yields_pure AllCost.nil)

theorem Yields.separatedNodes {separator : String} (h : Yields bottom r (Costs bottom spare)) :
    Yields bottom (Reader.separated separator r) fun k ns => AllCost bottom spare k ns ∧ ns ≠ [] :=
  h.separated (fun _ _ hn => hn.mono (by omega)) AllCost.nil fun _ _ _ _ => AllCost.cons

end Nodes

end Reader

end Scorecard.Source
