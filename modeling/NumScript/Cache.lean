import NumScript.Text

/-! A cache of bounded size that forgets what it has held the longest. -/

namespace NumScript

/-- Values by their keys, the oldest first. -/
structure Cache (α : Type) where
  /-- How many values are held at most; none when not positive. -/
  limit : Int
  entries : List (Text × α) := []

namespace Cache

variable {α : Type}

def keys (c : Cache α) : List Text := c.entries.map (·.1)

/-- The value stored under a key. -/
def get? (c : Cache α) (key : Text) : Option α := c.entries.lookup key

/-- Stores a value as the youngest; the oldest ones give way. A key that is there already keeps its
value and its age. -/
def put (c : Cache α) (key : Text) (value : α) : Cache α :=
  if c.limit ≤ 0 || c.keys.contains key then c
  else
    let surplus := c.entries.length + 1 - c.limit.toNat
    { c with entries := c.entries.drop surplus ++ [(key, value)] }

end Cache

end NumScript
