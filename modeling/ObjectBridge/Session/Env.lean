import ObjectBridge.Metadata.Resolved
import ObjectBridge.Session.Answer

namespace ObjectBridge

structure Env where
  bindings : Table String ScriptValue
  pointers : Table String Address
  -- The functions of the script in the order in which they were made.
  callbacks : Array Callback
  log : List LogEntry

def Env.initial : Env := ⟨Table.empty, Table.empty, #[], []⟩

abbrev Act := ExceptT StepError (Run Env)

namespace Act

def misuse (what : String) : Act α := throw (.misuse what)

def ofCall (c : Call Env α) : Act α := ExceptT.mk do return (← c.run).mapError .bridge

def ofEffect (e : Effect α) : Act α := ofCall (Call.ofEffect e)

def ofNative (r : Run Env (Except CallError α)) : Act α := ofCall (Call.ofNative r)

def onBridge (f : Bridge → α × Bridge) : Act α := ExceptT.lift (Run.onBridge f)

def readBridge (f : Bridge → α) : Act α := ExceptT.lift (Run.readBridge f)

def onEnv (f : Env → α × Env) : Act α := ExceptT.lift fun w =>
  let (a, env) := f w.host
  some (a, { w with host := env })

def readEnv (f : Env → α) : Act α := onEnv fun env => (f env, env)

def cloneValue (v : ScriptValue) : Act Unit := onBridge fun b => ((), b.cloneValue v)

def dropValue (v : ScriptValue) : Act Unit := onBridge fun b => ((), b.dropValue v)

-- Drops values that the action was handed, whether it fails or not.
def consuming (values : List ScriptValue) (act : Act α) : Act α := ExceptT.mk do
  let result ← act.run
  Run.dropValues values
  return result

-- Drops values that are of no use if the action fails.
def keeping (values : List ScriptValue) (act : Act α) : Act α := ExceptT.mk do
  let result ← act.run
  if let .error _ := result then Run.dropValues values
  return result

def log (entry : LogEntry) : Act Unit := onEnv fun env => ((), { env with log := entry :: env.log })

-- Without a handle.
def peek (name : String) : Act ScriptValue := do
  match ← readEnv (·.bindings.get? name) with
  | some v => return v
  | none => misuse ("variable " ++ name)

def wrapperIn (name : String) : Act Wrapper := do
  match ← peek name with
  | .object w => return w
  | _ => misuse ("variable " ++ name)

-- Puts a value into a variable; what was there is dropped.
def store (name : String) (v : ScriptValue) : Act Unit := do
  let old ← onEnv fun env =>
    (env.bindings.get? name, { env with bindings := env.bindings.put name v })
  if let some old := old then dropValue old

def unset (name : String) : Act Bool := do
  let old ← onEnv fun env =>
    (env.bindings.get? name, { env with bindings := env.bindings.erase name })
  if let some old := old then dropValue old
  return old.isSome

def pointer : PointerRef → Act Address
  | .null => return .null
  | .raw a => return a
  | .ofVariable name => do return (← wrapperIn name).address
  | .named name => do
    match ← readEnv (·.pointers.get? name) with
    | some a => return a
    | none => misuse ("pointer " ++ name)

def namePointer (name : Option String) (a : Address) : Act Unit :=
  match name with
  | some name => onEnv fun env => ((), { env with pointers := env.pointers.put name a })
  | none => pure ()

def describedClass : ClassRef → Act SynthesizedClass
  | .named name => ofEffect (Effect.synthesizeNamed name)
  | .placed id => ofEffect (Effect.synthesize id)

-- The place of a descriptor, which need not have a class.
def descriptorId : ClassRef → Act DescriptorId
  | .placed id => return id
  | .named name => do
    match ← readBridge (·.metadata.resolve? name) with
    | some (id, _) => return id
    | none => throw (.bridge (.notFound "metadata" name))

-- Any declaration will do, for a structure type too.
def resolveType (m : Metadata) (ty : TypeRef) : Except SchemaError TypeEncoding :=
  let idOf (name : String) : Except SchemaError DescriptorId :=
    match m.resolve? name with
    | some (id, _) => .ok id
    | none => .error (.unknownType name)
  TypeExpr.resolve idOf idOf ty

def type : TypeArg → Act TypeEncoding
  | .objectAt id => return .object (some id)
  | .structAt id => return .struct id
  | .spelled text => do
    let metadata ← readBridge (·.metadata)
    match readTypeText text >>= resolveType metadata with
    | .ok ty => return ty
    | .error e => throw (.schema e)

def nativeClass : NativeClassRef → Act ClassId
  | .numbered id => return id
  | .named name => do
    match ← readBridge (·.natives.named? name) with
    | some id => return id
    | none => misuse ("native class " ++ name)

def receiver : ReceiverRef → Act Receiver
  | .instance p => do return .instance (← pointer p)
  | .classObject c => do return .classObject (← nativeClass c)
  | .none => return .none

def freshIdentity : Act Nat := ofEffect Effect.freshIdentity

mutual

def native : NativeArg → Act NativeValue
  | .literal v => return v
  | .object p => do return .object (← pointer p)
  | .classObject c => do return .classRef (some (← nativeClass c))
  | .block arity body => do return .block (some (.native (← freshIdentity) arity body))
  | .struct fields => do return .struct (← natives fields)

def natives : List NativeArg → Act (List NativeValue)
  | [] => return []
  | a :: rest => do
    let v ← native a
    return v :: (← natives rest)

end

def makeFunction (c : Callback) : Act ScriptValue := do
  let body ← onEnv fun env =>
    (env.callbacks.size, { env with callbacks := env.callbacks.push c })
  return .function (.written (← freshIdentity) c.name c.arity body)

mutual

def evaluate : Expression → Act ScriptValue
  | .literal v => return v
  | .var name => do
    let v ← peek name
    cloneValue v
    return v
  | .constructor c => do return .constructor (← describedClass c)
  | .function c => makeFunction c
  | .record fields => do return .ofFields (← evaluateFields fields)

def evaluateFields : List (String × Expression) → Act (List (String × ScriptValue))
  | [] => return []
  | (name, e) :: rest => do
    let v ← evaluate e
    return (name, v) :: (← keeping [v] (evaluateFields rest))

end

-- What was evaluated is dropped if a later one fails.
def evaluateAll : List Expression → Act (List ScriptValue)
  | [] => return []
  | e :: rest => do
    let v ← evaluate e
    return v :: (← keeping [v] (evaluateAll rest))

end Act

end ObjectBridge
