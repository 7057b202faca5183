import ObjectBridge.Synthesis.Memo

namespace ObjectBridge

structure CheckReport where
  total : Nat
  failures : List (String × BridgeError)

namespace Metadata

def isClassLike : Descriptor → Bool
  | .interface .. | .protocol .. => true
  | _ => false

def checkAll (m : Metadata) (memo : Memo) :
    List (DescriptorId × Descriptor) → List (String × BridgeError)
  | [] => []
  | (id, d) :: rest =>
    match Synthesis.classOf ⟨m, ClassTable.initial⟩ id memo with
    | (.ok _, memo) => checkAll m memo rest
    | (.error e, memo) => (d.name, e) :: checkAll m memo rest

def check (m : Metadata) : CheckReport :=
  let described := m.named.filter fun (_, d) => isClassLike d
  ⟨described.length, checkAll m Memo.empty described⟩

end Metadata

def CheckReport.verdict (r : CheckReport) : Except (Nat × Nat) Nat :=
  if r.failures.isEmpty then .ok r.total else .error (r.failures.length, r.total)

end ObjectBridge
