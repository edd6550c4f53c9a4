import PayloadMapping.Action.Basic
import PayloadMapping.Path.Basic

set_option autoImplicit false

/-!
# Mappings

A mapping is a list of rules. A field rule copies one value, a group holds further rules for the
same subtree, and a loop evaluates its rules for every item of a list.
-/

namespace PayloadMapping

structure FieldRule where
  source : Option Path
  target : Path
  action : Option Action := none
  isOptional : Bool := false
  addToCache : Bool := false
  isUniqueId : Bool := false
  fromParent : Bool := false
  defaultValue : Option Value := none

inductive Rule where
  | field (rule : FieldRule)
  | group (rules : List Rule)
  | loop (source target : Path) (rules : List Rule) (action : Option Action)

structure Mapping where
  name : Option String := none
  rules : List Rule

namespace FieldRule

def copy (source target : Path) : FieldRule := { source := some source, target := target }

def sameOption {α : Type} (same : α → α → Bool) : Option α → Option α → Bool
  | none, none => true
  | some a, some b => same a b
  | _, _ => false

def same (a b : FieldRule) : Bool :=
  a.source == b.source && a.target == b.target && sameOption Action.same a.action b.action
    && a.isOptional == b.isOptional && a.addToCache == b.addToCache
    && a.isUniqueId == b.isUniqueId && a.fromParent == b.fromParent
    && sameOption Value.same a.defaultValue b.defaultValue

end FieldRule

namespace Rule

mutual

def same : Rule → Rule → Bool
  | .field a, .field b => a.same b
  | .group rules, .group rules' => sameAll rules rules'
  | .loop source target rules action, .loop source' target' rules' action' =>
    source == source' && target == target' && sameAll rules rules'
      && FieldRule.sameOption Action.same action action'
  | _, _ => false

def sameAll : List Rule → List Rule → Bool
  | [], [] => true
  | a :: as, b :: bs => same a b && sameAll as bs
  | _, _ => false

end

mutual

def count : Rule → Nat
  | .field _ => 1
  | .group rules => 1 + countAll rules
  | .loop _ _ rules _ => 1 + countAll rules

def countAll : List Rule → Nat
  | [] => 0
  | rule :: rest => count rule + countAll rest

end

mutual

/-- How deep rules are nested in a rule. A group or loop without rules counts as one with a
field. -/
def depth : Rule → Nat
  | .field _ => 1
  | .group rules => 1 + max (depthAll rules) 1
  | .loop _ _ rules _ => 1 + max (depthAll rules) 1

def depthAll : List Rule → Nat
  | [] => 0
  | rule :: rest => max (depth rule) (depthAll rest)

end

mutual

/-- The actions of a rule, depth first, with the parts of chains. -/
def actions : Rule → List Action
  | .field rule => (rule.action.map Action.flatten).getD []
  | .group rules => actionsAll rules
  | .loop _ _ rules action => actionsAll rules ++ (action.map Action.flatten).getD []

def actionsAll : List Rule → List Action
  | [] => []
  | rule :: rest => actions rule ++ actionsAll rest

end

end Rule

namespace Mapping

def keys : List String := ["name", "field_set"]

def same (a b : Mapping) : Bool := a.name == b.name && Rule.sameAll a.rules b.rules

def ruleCount (mapping : Mapping) : Nat := Rule.countAll mapping.rules

/-- How deep rules are nested: none without rules, one without groups and loops. -/
def depth (mapping : Mapping) : Nat := Rule.depthAll mapping.rules

def actions (mapping : Mapping) : List Action := Rule.actionsAll mapping.rules

def label (mapping : Mapping) : String := mapping.name.getD "<unnamed>"

end Mapping

end PayloadMapping
