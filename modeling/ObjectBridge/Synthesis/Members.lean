import ObjectBridge.Synthesis.SynthesizedClass

namespace ObjectBridge

structure MemberTables where
  instanceMethods : Table String MethodEntry
  staticMethods : Table String MethodEntry
  instanceProperties : Table String PropertyEntry
  staticProperties : Table String PropertyEntry
  -- Own ones only.
  initializers : List MethodEntry
  deriving Inhabited

namespace MemberTables

def empty : MemberTables := ⟨Table.empty, Table.empty, Table.empty, Table.empty, []⟩

-- Takes over what another class answers; initializers are no members.
def inherit (t : MemberTables) (c : SynthesizedClass) : MemberTables :=
  { t with
    instanceMethods := c.instanceMethods.overlaying t.instanceMethods
    staticMethods := c.staticMethods.overlaying t.staticMethods
    instanceProperties := c.instanceProperties.overlaying t.instanceProperties
    staticProperties := c.staticProperties.overlaying t.staticProperties }

def addMethod (t : MemberTables) (e : MethodEntry) : MemberTables :=
  if e.method.isInitializer then { t with initializers := t.initializers ++ [e] }
  else if e.method.isStatic then { t with staticMethods := t.staticMethods.put e.name e }
  else { t with instanceMethods := t.instanceMethods.put e.name e }

def addProperty (t : MemberTables) (e : PropertyEntry) : MemberTables :=
  if e.property.isStatic then
    { t with staticProperties := t.staticProperties.put e.property.name e }
  else { t with instanceProperties := t.instanceProperties.put e.property.name e }

def declare (t : MemberTables) (d : Descriptor) : MemberTables :=
  let withMethods := d.methods.foldl (fun t m => t.addMethod ⟨m, d.name⟩) t
  d.properties.foldl (fun t p => t.addProperty ⟨p, d.name⟩) withMethods

end MemberTables

-- The class of a descriptor whose superclass and protocols are there.
def SynthesizedClass.assemble (id : DescriptorId) (d : Descriptor) (native : Option ClassId)
    (parent : Option SynthesizedClass) (protocols : List SynthesizedClass) : SynthesizedClass :=
  let inherited := parent.toList.foldl MemberTables.inherit
    (protocols.foldl MemberTables.inherit .empty)
  let tables := inherited.declare d
  { id := id
    name := d.name
    kind := d.kind
    native := native
    superclass := parent.map (·.id)
    protocols := protocols.map (·.id)
    lineage := id :: (parent.map (·.lineage)).getD []
    conformances := ((parent.map (·.conformances)).getD []
      ++ protocols.flatMap fun p => p.id :: p.conformances).eraseDups
    instanceMethods := tables.instanceMethods
    staticMethods := tables.staticMethods
    instanceProperties := tables.instanceProperties
    staticProperties := tables.staticProperties
    initializers := tables.initializers ++ (parent.map (·.initializers)).getD [] }

end ObjectBridge
