import Scorecard.Rule.Catalog

set_option autoImplicit false

/-! # Registries

A registry holds the rules that are known. Rules are registered one by one; then the registry is
frozen and only read. A rule is refused if its id is taken or if its weight cannot be part of a
category whose weights add up to one, and a registry whose categories do not add up is not frozen.
-/

namespace Scorecard

/-- The registered rules, found by their ids and by their categories. Both tables keep the order in
which their keys were first used, and the rules of a category are in the order of registration. -/
structure Registry where
  byId : List (String × Rule) := []
  byCategory : List (Category × List Rule) := []
  frozen : Bool := false

/-- Why an operation on a registry is refused. -/
inductive RegistryError where
  | frozen (id : String)
  | duplicate (id : String)
  | weightRange (id : String) (category : Category) (weight : Number)
  | sumTooLarge (id : String) (category : Category) (weight total : Number)
  | incompleteSum (category : Category) (total : Number)
deriving DecidableEq, Repr

def RegistryError.message : RegistryError → String
  | frozen id => "Cannot register '" ++ id ++ "': the rule registry is frozen."
  | duplicate id => "Rule '" ++ id ++ "' is already registered."
  | weightRange id _ weight =>
      "Rule '" ++ id ++ "' has weight " ++ weight.text ++ "; weights must be in (0, 1]."
  | sumTooLarge id category weight total =>
    "Registering '" ++ id ++ "' (weight " ++ weight.text ++ ") would raise the '" ++
      category.slug ++ "' weight sum to " ++ total.fixed 6 ++ ", above 1.0."
  | incompleteSum category total =>
    "Rule weights for '" ++ category.slug ++ "' sum to " ++ total.fixed 6 ++ ", expected 1.0."

/-- How far a sum of weights may be from one. -/
def weightTolerance : Number := .ofDecimal false 1 (-6)

/-- An operation on a registry. What a refused operation did to the registry before it was refused
stays done. -/
abbrev RegistryM := EStateM RegistryError Registry

/-- The registry as an operation leaves it, refused or not. -/
def RegistryM.leaves {α : Type} (operation : RegistryM α) (r : Registry) : Registry :=
  match operation r with
  | .ok _ r' => r'
  | .error _ r' => r'

namespace Registry

def empty : Registry := {}

/-- The rules of a category in the order of registration. -/
def rulesFor (r : Registry) (c : Category) : List Rule := (r.byCategory.lookup c).getD []

/-- The sum of the weights of some rules. -/
def weightSum (ρ : Rounding) (rules : List Rule) : Number := Number.sum ρ (rules.map (·.weight))

/-- The sum of the weights of a category. -/
def categoryWeight (ρ : Rounding) (r : Registry) (c : Category) : Number :=
  weightSum ρ (r.rulesFor c)

/-- The categories that have rules, in their order. -/
def categories (r : Registry) : List Category :=
  Category.all.filter fun c => (r.byCategory.lookup c).isSome

/-- The rule with an id. -/
def get? (r : Registry) (id : String) : Option Rule := r.byId.lookup id

def contains (r : Registry) (id : String) : Bool := (r.get? id).isSome

def size (r : Registry) : Nat := r.byId.length

/-- The rules category after category. -/
def toList (r : Registry) : List Rule := r.categories.flatMap r.rulesFor

/-! ## Operations -/

/-- Makes a rule known by its id. -/
def addById (rule : Rule) (r : Registry) : Registry :=
  { r with byId := alterEntry rule.id (fun _ => rule) r.byId }

/-- Puts a rule at the end of its category. -/
def addToCategory (rule : Rule) (r : Registry) : Registry :=
  { r with
    byCategory := alterEntry rule.category (fun rules => rules.getD [] ++ [rule]) r.byCategory }

/-- Adds a rule. -/
def register (ρ : Rounding) (rule : Rule) : RegistryM Unit := do
  let r ← get
  if r.frozen then throw (.frozen rule.id)
  else if r.contains rule.id then throw (.duplicate rule.id)
  else if !(Number.lt (.finite 0) rule.weight && rule.weight.le (.finite 1)) then
    throw (.weightRange rule.id rule.category rule.weight)
  else
    -- the rule comes last in its category, and its weight last in the sum
    let total := Number.add ρ (r.categoryWeight ρ rule.category) rule.weight
    if Number.lt (Number.add ρ (.finite 1) weightTolerance) total then
      throw (.sumTooLarge rule.id rule.category rule.weight total)
    else
      modify (addById rule)
      modify (addToCategory rule)

/-- Adds rules one after the other. -/
def registerAll (ρ : Rounding) (rules : List Rule) : RegistryM Unit := rules.forM (register ρ)

/-- Whether weights that have this sum add up to one. -/
def isComplete (ρ : Rounding) (total : Number) : Bool :=
  !Number.lt weightTolerance (Number.sub ρ total (.finite 1)).abs

/-- Refuses a category whose weights do not add up to one. -/
def checkComplete (ρ : Rounding) : Category × List Rule → RegistryM Unit
  | (c, rules) =>
      if isComplete ρ (weightSum ρ rules) then pure () else throw
        (.incompleteSum c (weightSum ρ rules))

/-- Makes the registry read-only. The categories are checked in the order of their first rules. -/
def freeze (ρ : Rounding) : RegistryM Unit := do
  let r ← get
  r.byCategory.forM (checkComplete ρ)
  modify fun r => { r with frozen := true }

/-- Registers the built-in rules and freezes the registry. -/
def build (ρ : Rounding) (limits : Limits) : RegistryM Unit := do
  registerAll ρ (Catalog.rules ρ limits)
  freeze ρ

/-- The frozen registry of the built-in rules. Their ids are distinct and the weights of every
category add up to one, so nothing is refused on the way. -/
def builtIn (ρ : Rounding) (limits : Limits) : Registry := (build ρ limits).leaves empty

/-- The registry of the built-in rules for limits that can be written. They stand in the texts of
the rules, so there are no rules without them. -/
def ofLimits (ρ : Rounding) (limits : Limits) : Except DigitError Registry :=
  if limits.arePrintable then .ok (builtIn ρ limits) else .error .tooManyDigits

/-! ## Selecting rules -/

/-- The ids among those asked for that are not registered, in code point order. -/
def unknownIds (r : Registry) (ids : List String) : List String :=
  Text.sortedSet (ids.filter fun id => !r.contains id)

/-- The ids of the active rules in code point order: those enabled, or all if nothing is said,
without those disabled. An id that is not registered is refused. -/
def select (r : Registry) (enabled : Option (List String)) (disabled : List String) :
    Except (List String) (List String) :=
  let unknown := r.unknownIds (enabled.getD [] ++ disabled)
  if unknown.isEmpty then
    .ok (Text.sortedSet ((enabled.getD (r.toList.map (·.id))).filter fun id =>
      !disabled.contains id))
  else .error unknown

/-- The message for ids that are not registered. -/
def unknownMessage (ids : List String) : String := "Unknown rule ids: " ++ ", ".intercalate ids

/-- Whether a rule is active. If no ids are given, all rules are. -/
def isActive (active : Option (List String)) (rule : Rule) : Bool :=
  match active with
  | none => true
  | some ids => ids.contains rule.id

end Registry

end Scorecard
