import Mathlib.Data.Finset.Insert
import StompyMux.Library.OrderedMap

-- The objects of the world.
namespace StompyMux.World

open Library

abbrev ObjectId := Int

inductive Kind
  | Room
  | Thing
  | Exit
  | Player
  | Garbage
  deriving DecidableEq

inductive Flag
  | Going
  | Halted
  deriving DecidableEq

-- The id of an object is its key in the world. A generation belongs to one incarnation of it.
structure Object where
  generation : Nat
  kind : Kind
  location : Option ObjectId
  flags : Finset Flag
  deriving DecidableEq

abbrev World := OrderedMap ObjectId Object

def insertFlag (flag : Flag) (object : Object) : Object :=
  { object with flags := insert flag object.flags }

end StompyMux.World
