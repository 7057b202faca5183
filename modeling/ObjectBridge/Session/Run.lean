import ObjectBridge.Session.Steps

namespace ObjectBridge

namespace Act

-- The wrapper of a variable, with a handle that lasts as long as the use.
def usingWrapper (name : String) (use : Wrapper → Act α) : Act α := do
  let w ← wrapperIn name
  cloneValue (.object w)
  consuming [.object w] (use w)

def usingOwner (owner : OwnerRef) (use : Target → Act α) : Act α := do
  match owner with
  | .ofVariable name => usingWrapper name fun w => use (.instance w)
  | .ofClass c => use (.static (← describedClass c))

def usingArgs (args : List Expression) (use : List ScriptValue → Act α) : Act α := do
  let values ← evaluateAll args
  consuming values (use values)

def usingValue (e : Expression) (use : ScriptValue → Act α) : Act α := do
  let v ← evaluate e
  consuming [v] (use v)

def valueOf (c : Call Env ScriptValue) : Act Answer := do return .value (← ofCall c)

-- An initializer by its name; an instance method may serve as one.
def initializer (c : SynthesizedClass) (name : String) : Act MethodEntry :=
  match c.initializerNamed? name with
  | some e => return e
  | none =>
    match c.instanceMethods.get? name with
    | some e => return e
    | none => throw (.bridge (.notFound c.name name))

-- What comes of invoking a converted value, if it is a block.
def invoked (host : Host Env) (v : NativeValue) :
    Option (List NativeValue) → Act (Option (Except CallError NativeValue))
  | none => return none
  | some args =>
    match v.toBlock? with
    | none => return none
    | some block => do return some (← ExceptT.lift (host.invokeBlock block args))

def marshal (host : Host Env) (v : ScriptValue) (ty : TypeEncoding)
    (invoke : Option (List NativeValue)) (back : Bool) : Act Answer := do
  let n ← ofEffect (Effect.toNative v ty)
  let result ← invoked host n invoke
  let returned ← if back then some <$> ofEffect (Effect.toScripting n ty) else pure none
  return .marshalled ⟨n, result, returned⟩ (← readBridge (·.natives))

def runScript (host : Host Env) : ScriptCommand → Act Answer
  | .evaluate e => do return .value (← evaluate e)
  | .drop name => do return .flag (← unset name)
  | .new c args init => do
    let c ← describedClass c
    usingArgs args fun args => do
      match init with
      | none => return .value (.object (← ofCall (host.construct c args)))
      | some name =>
        let init ← initializer c name
        return .value (.object (← ofCall (host.constructWith c init args)))
  | .call on method args =>
    usingWrapper on fun w => usingArgs args fun args => valueOf (host.callMethod w method args)
  | .callStatic c method args => do
    let c ← describedClass c
    usingArgs args fun args => valueOf (host.callStatic c method args)
  | .get owner property => usingOwner owner fun t => valueOf (host.getProperty t property)
  | .put owner property value =>
    usingOwner owner fun t => usingValue value fun v => do
      ofCall (host.setProperty t property v)
      return .nothing
  | .callFunction name args => usingArgs args fun args => valueOf (host.callFunction name args)
  | .global name => valueOf (Call.ofEffect (Effect.global name))
  | .apply function args =>
    usingValue function fun f => usingArgs args fun args =>
      match f with
      | .function f => valueOf (host.callScript f args)
      | _ => misuse "function"
  | .isInstance value c => do
    let c ← describedClass c
    usingValue value fun v => return .flag (v.isInstanceOf c)
  | .shutdown => do
    let wasOpen ← readBridge (·.isOpen)
    onBridge fun b => ((), b.close)
    return .flag wasOpen
  | .display value => usingValue value fun v => return .display v
  | .describe value => usingValue value fun v => do
    let holdings ← readBridge (·.holdings)
    return .remote (.ofValue holdings.isReleased v)
  | .same a b => usingValue a fun a => usingValue b fun b => return .flag (a.same b)
  | .sameClass a b => do
    let a ← describedClass a
    let b ← describedClass b
    return .flag (a.id = b.id)
  | .toNative value ty invoke back => usingValue value fun v => do
    let ty ← type ty
    let invoke ← invoke.mapM natives
    marshal host v ty invoke back
  | .toScripting value ty owning => do
    let n ← native value
    let ty ← type ty
    valueOf (Call.ofEffect (Effect.toScriptingOwned n ty (owning.getD false)))

def carryOut (host : Host Env) : Step → Act Answer
  | .script command _ => runScript host command
  | .ask inquiry => answerInquiry inquiry
  | .registry registry command _ => runRegistry registry command
  | .native command => runNative host command

def runStep (host : Host Env) (step : Step) : Act Answer := do
  let answer ← carryOut host step
  match answer.value?, step.store with
  | some v, some name => store name v
  | some v, none => dropValue v
  | none, _ => pure ()
  return answer

def attempt (act : Act α) : Act (Except StepError α) := ExceptT.lift act.run

def sumOf (args : List ScriptValue) : Double :=
  (args.filterMap (·.toNumber?)).foldl (· + ·) .zero

def result (args : List ScriptValue) : CallbackResult → Act ScriptValue
  | .undefined => return .undefined
  | .failure text => throw (.bridge (.notFound "script" text))
  | .argument index => do
    let v := (args[index]?).getD .undefined
    cloneValue v
    return v
  | .sum => return .number (sumOf args)
  | .value e => evaluate e

def runCallback (host : Host Env) (c : Callback) (args : List ScriptValue) : Act ScriptValue := do
  log (.call c.name args)
  if let some name := c.save then
    let v := args.head?.getD .undefined
    cloneValue v
    store name v
  c.steps.forM fun step => do log (.step (← attempt (runStep host step)))
  result args c.result

-- Scripts see every failure as one of the bridge.
def failure : StepError → BridgeError
  | .bridge e => e
  | .schema e => .notFound "script" e.message
  | .misuse what => .notFound "script" what

def callback (host : Host Env) (body : Nat) (args : List ScriptValue) : Call Env ScriptValue :=
  let act : Act ScriptValue := do
    match ← readEnv (·.callbacks[body]?) with
    | some c => runCallback host c args
    | none => misuse "function"
  ExceptT.mk do return (← act.run).mapError failure

end Act

namespace Session

-- Native code and callbacks may nest to the given depth.
def host : (depth : Nat) → Host Env
  | 0 => ⟨fun _ _ _ => none, fun _ _ _ => none⟩
  | depth + 1 =>
    { perform := fun body frame => Repertoire.perform (host depth) body frame
      written := fun body args => Act.callback (host depth) body args }

def record (host : Host Env) (step : Step) : Run Env StepRecord := do
  let outcome ← (Act.runStep host step).run
  let b ← Run.readBridge id
  let log ← fun w => some (w.host.log.reverse, { w with host := { w.host with log := [] } })
  return ⟨outcome, b.heap.liveCount, (b.registryStats? Bridge.registryNumber).map (·.live), log⟩

def recordAll (host : Host Env) : List Step → Run Env (List StepRecord)
  | [] => return []
  | step :: rest => do
    let first ← record host step
    return first :: (← recordAll host rest)

def dropVariables : Run Env Unit := do
  let values ← fun w => some (w.host.bindings.values, w)
  Run.dropValues values

def transcript (host : Host Env) (steps : List Step) : Run Env Transcript := do
  let records ← recordAll host steps
  dropVariables
  return ⟨records, ← Run.readBridge (·.heap.liveCount)⟩

-- A second registry that sessions may use beside the bridge's own.
def otherRegistry : Nat := 1

-- The classes and functions of the native program are there before the first step. There is no
-- transcript if calls nest deeper than `depth`.
def run (metadata : Metadata) (classes : List ClassDefinition)
    (functions : List (String × NativeFunction)) (depth : Nat) (steps : List Step) :
    Except CallError (Option Transcript) := do
  let natives ← classes.foldlM (fun t d => return (← ClassTable.register t d).2) ClassTable.initial
  let bridge := { Bridge.initial metadata [otherRegistry] with
    natives := natives
    functions := Table.ofList functions }
  return (transcript (host depth) steps ⟨bridge, Env.initial⟩).map (·.1)

end Session

end ObjectBridge
