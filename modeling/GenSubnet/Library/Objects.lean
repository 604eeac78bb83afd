import GenSubnet.Library.Dict
import Mathlib.Logic.Relation

/-!
# Graphs of objects

Objects with property descriptors and prototypes, and what reads of properties, descriptors and
prototypes obtain from a value. A program can write every primitive itself.
-/

namespace GenSubnet.Library.Objects

inductive Prim
  | undefined
  | null
  | boolean (b : Bool)
  | number (text : String)
  | string (text : String)
  | symbol (name : String)
deriving DecidableEq

inductive Key
  | str (name : String)
  | sym (name : String)
deriving DecidableEq

/-- The primitive that an enumeration gives for a key. -/
def Key.prim : Key → Prim
  | .str name => .string name
  | .sym name => .symbol name

inductive Value (O : Type)
  | prim (p : Prim)
  | obj (o : O)
deriving DecidableEq

inductive Descriptor (O : Type)
  | data (value : Value O) (enumerable : Bool)
  | accessor (get set : Option O) (enumerable : Bool)
deriving DecidableEq

def Descriptor.enumerable {O : Type} : Descriptor O → Bool
  | .data _ enumerable => enumerable
  | .accessor _ _ enumerable => enumerable

/-- The values that a descriptor has. -/
def Descriptor.parts {O : Type} : Descriptor O → List (Value O)
  | .data value _ => [value]
  | .accessor get set _ => get.toList.map .obj ++ set.toList.map .obj

structure Object (O : Type) where
  own : Dict Key (Descriptor O) := .empty
  proto : Option O := none
  callable : Bool := false

/-- What a getter returns on a receiver, and where the properties of a primitive are looked up. -/
structure Graph (O : Type) where
  heap : O → Object O
  calls : O → Value O → Value O
  wrapper : Prim → Option O

variable {O : Type} (graph : Graph O)

namespace Graph

/-- The value of a property on a receiver. -/
def valueOf (receiver : Value O) : Descriptor O → Value O
  | .data value _ => value
  | .accessor (some get) _ _ => graph.calls get receiver
  | .accessor none _ _ => .prim .undefined

/-- The lookup of a property along the prototypes. -/
inductive Finds : O → Key → Descriptor O → Prop
  | own {o : O} {key : Key} {d : Descriptor O} (has : (graph.heap o).own.get key = some d) : Finds o key d
  | inherited {o proto : O} {key : Key} {d : Descriptor O} (absent : (graph.heap o).own.get key = none)
      (is : (graph.heap o).proto = some proto) (finds : Finds proto key d) : Finds o key d

/-- Where the properties of a value are looked up. -/
def base : Value O → Option O
  | .prim p => graph.wrapper p
  | .obj o => some o

/-- One read. -/
inductive Reads : Value O → Value O → Prop
  | property {v : Value O} {o : O} {key : Key} {d : Descriptor O} (base : graph.base v = some o)
      (finds : graph.Finds o key d) : Reads v (graph.valueOf v d)
  | descriptor {o : O} {key : Key} {d : Descriptor O} (has : (graph.heap o).own.get key = some d)
      {part : Value O} (member : part ∈ d.parts) : Reads (.obj o) part
  | prototype {v : Value O} {o proto : O} (base : graph.base v = some o)
      (is : (graph.heap o).proto = some proto) : Reads v (.obj proto)
  | wrapper {p : Prim} {o : O} (is : graph.wrapper p = some o) : Reads (.prim p) (.obj o)

/-- What reads obtain from the roots and the primitives. -/
inductive Obtains (roots : Value O → Prop) : Value O → Prop
  | root {v : Value O} (member : roots v) : Obtains roots v
  | prim (p : Prim) : Obtains roots (.prim p)
  | read {v w : Value O} (obtained : Obtains roots v) (reads : graph.Reads v w) : Obtains roots w

variable {graph}

theorem Obtains.mono {roots more : Value O → Prop} {v : Value O} (obtained : graph.Obtains roots v)
    (within : ∀ w, roots w → graph.Obtains more w) : graph.Obtains more v := by
  induction obtained with
  | root member => exact within _ member
  | prim p => exact .prim p
  | read _ reads ih => exact .read ih reads

end Graph

end GenSubnet.Library.Objects
