import Granularity.Risk

namespace Granularity

inductive Tier where
  | critical
  | high
  | medium
  | low
  deriving DecidableEq

namespace Tier

def all : List Tier := [.critical, .high, .medium, .low]

def label : Tier → String
  | .critical => "P0_CRITICAL"
  | .high => "P1_HIGH"
  | .medium => "P2_MEDIUM"
  | .low => "P3_LOW"

def ofLabel? (s : String) : Option Tier :=
  all.find? (·.label == s)

def action : Tier → String
  | .critical => "Fix immediately - potential data loss"
  | .high => "Fix in current sprint"
  | .medium => "Fix in next sprint"
  | .low => "Add to backlog"

def previewLimit : Tier → Nat
  | .critical => 5
  | .high => 5
  | .medium => 3
  | .low => 0

/-- The tier of a score; a boundary belongs to the tier above it. -/
def ofScore (x : Float) : Tier :=
  if 8 ≤ x then .critical
  else if 6 ≤ x then .high
  else if 4 ≤ x then .medium
  else .low

end Tier

structure Fix where
  tier : Tier
  count : Nat
  action : String
  issues : List String
  deriving DecidableEq

def Fix.ofTier? (l : List Issue) (t : Tier) : Option Fix :=
  let members := l.filter fun i => Tier.ofScore i.score == t
  if members.isEmpty then none
  else some {
    tier := t
    count := members.length
    action := t.action
    issues := (members.take t.previewLimit).map Issue.description }

def prioritize (l : List Issue) : List Fix :=
  Tier.all.filterMap (Fix.ofTier? l)

end Granularity
