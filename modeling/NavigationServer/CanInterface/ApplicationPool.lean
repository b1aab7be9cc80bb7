/-
NavigationServer.CanInterface.ApplicationPool — what the pool gives out.

`NMEA2000ApplicationPool` gives addresses and NAMEs to the applications of a
node. The addresses come from a list that is gone through once, and the NAMEs
differ in a counter that is or-ed into the identity number, whose low bits the
shift of `__init__` leaves free. The controller changes the addresses that it
knows at any time, so a run is a list of calls, each with what is known then.
-/
import NavigationServer.CanInterface.ActiveController
import NavigationServer.Lib.Machine
import NavigationServer.Nmea2000Datamodel.MutableName

namespace NavigationServer.CanInterface

open NavigationServer.Lib
open NavigationServer.Nmea2000Datamodel

/-- What the caller of the pool asks for. -/
inductive PoolCall
  | applicationIds (deviceClass deviceFunction : Nat)
  | applicationName (deviceClass deviceFunction : Nat)
  | getNewAddress
  deriving DecidableEq, Repr

/-- A call, and whether the controller knows an address when the call looks at
it: no call looks at an address twice. -/
structure PoolInput where
  call : PoolCall
  known : Nat → Bool

/-- What a call gives out. `address` is what `get_new_address` returns, also
when `application_ids` then raises. -/
structure PoolAnswer where
  address : Option Nat
  name : Option MutableName
  indexError : Bool

namespace NMEA2000ApplicationPool

/-- `get_new_address`. -/
def getNewAddress (pool : NMEA2000ApplicationPool) (known : Nat → Bool) :
    Nat × NMEA2000ApplicationPool :=
  let (address, rest) := NMEA2KActiveController.takeAddress known pool.addressPool
  (address, { pool with addressPool := rest })

/-- `application_name`, or `none` for an IndexError. -/
def applicationName (pool : NMEA2000ApplicationPool) (deviceClass deviceFunction : Nat) :
    Option MutableName × NMEA2000ApplicationPool :=
  match NMEA2KActiveController.applicationName pool deviceClass deviceFunction with
  | some kwargs =>
      (some (MutableName.init kwargs), { pool with applicationCount := pool.applicationCount + 1 })
  | none => (none, pool)

/-- `application_ids`: an address first, and a NAME when there was one. -/
def applicationIds (pool : NMEA2000ApplicationPool) (known : Nat → Bool)
    (deviceClass deviceFunction : Nat) : PoolAnswer × NMEA2000ApplicationPool :=
  let (address, pool) := pool.getNewAddress known
  if address = 254 then (⟨some address, none, true⟩, pool)
  else
    let (name, pool) := pool.applicationName deviceClass deviceFunction
    (⟨some address, name, name.isNone⟩, pool)

def answer (pool : NMEA2000ApplicationPool) (input : PoolInput) :
    PoolAnswer × NMEA2000ApplicationPool :=
  match input.call with
  | .applicationIds deviceClass deviceFunction =>
      pool.applicationIds input.known deviceClass deviceFunction
  | .applicationName deviceClass deviceFunction =>
      let (name, pool) := pool.applicationName deviceClass deviceFunction
      (⟨none, name, name.isNone⟩, pool)
  | .getNewAddress =>
      let (address, pool) := pool.getNewAddress input.known
      (⟨some address, none, false⟩, pool)

def machine : Machine NMEA2000ApplicationPool PoolInput PoolAnswer := ⟨answer⟩

end NMEA2000ApplicationPool

/-- The addresses that are given out in a run: 254 stands for none. -/
def addressesGiven (answers : List PoolAnswer) : List Nat :=
  (answers.filterMap PoolAnswer.address).filter (· ≠ 254)

/-- The NAMEs that are given out in a run. -/
def namesIssued (answers : List PoolAnswer) : List MutableName :=
  answers.filterMap PoolAnswer.name

end NavigationServer.CanInterface
