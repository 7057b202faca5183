import ObjectBridge.Inspector.Objects

namespace ObjectBridge

structure Console where
  retains : Bool
  -- Oldest first.
  entries : List ConsoleMessage
  deriving Inhabited

namespace Console

def empty (retains : Bool) : Console := ⟨retains, []⟩

def line (values : List ScriptValue) : String := " ".intercalate (values.map (·.text))

-- The line to be printed, and the console after it.
def emit (c : Console) (level : ConsoleLevel) (timestamp : Double) (values : List ScriptValue) :
    String × Console :=
  let text := line values
  (text ++ "\n",
    if c.retains then { c with entries := c.entries ++ [⟨level, text, timestamp⟩] } else c)

def take (c : Console) : List ConsoleMessage × Console := (c.entries, { c with entries := [] })

end Console

end ObjectBridge
