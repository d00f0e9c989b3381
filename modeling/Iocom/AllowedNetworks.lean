import Mathlib.Data.Nat.Bitwise

/-!
# Allowed networks

The list of IO networks which the user of a connection may access, set up by
the authorization function.  Network names are no longer than their arrays.
-/

namespace Iocom

/-- `IOC_AUTH_ADMINISTRATOR`. -/
def authAdministrator : ℕ := 1

structure AllowedNetwork where
  networkName : String
  flags : ℕ
  deriving DecidableEq

/-- `ioc_add_allowed_network`. -/
def addAllowedNetwork :
    List AllowedNetwork → String → ℕ → List AllowedNetwork
  | [], networkName, flags => [⟨networkName, flags⟩]
  | network :: networks, networkName, flags =>
      if networkName = network.networkName then
        { network with flags := network.flags ||| flags } :: networks
      else network :: addAllowedNetwork networks networkName flags

/-- The check of `ioc_is_network_authorized` on a secured connection. -/
def isNetworkAllowed :
    List AllowedNetwork → String → ℕ → Bool
  | [], _, _ => false
  | network :: networks, networkName, flags =>
      if networkName = network.networkName then
        if flags &&& authAdministrator ≠ 0 then
          decide (network.flags &&& authAdministrator ≠ 0)
        else true
      else isNetworkAllowed networks networkName flags

/-- Members of a connection and of its root which `ioc_is_network_authorized` asks
for. -/
structure ConnectionSecurity where
  authorizationFunc : Bool
  listener : Bool
  secureConnection : Bool
  allowedNetworks : List AllowedNetwork
  deriving DecidableEq

/-- `ioc_is_network_authorized`. -/
def ConnectionSecurity.isNetworkAuthorized
    (con : ConnectionSecurity) (networkName : String) (flags : ℕ) : Bool :=
  if !con.authorizationFunc then true
  else if !(con.listener && con.secureConnection) then true
  else isNetworkAllowed con.allowedNetworks networkName flags

def isAdministrator (networks : List AllowedNetwork) (networkName : String) : Bool :=
  isNetworkAllowed networks networkName authAdministrator

theorem isAdministrator_cons
    (network : AllowedNetwork) (networks : List AllowedNetwork) (networkName : String) :
    isAdministrator (network :: networks) networkName =
      if networkName = network.networkName then network.flags.testBit 0
      else isAdministrator networks networkName := by
  have hbit : decide (network.flags &&& authAdministrator ≠ 0) =
      network.flags.testBit 0 := by
    unfold authAdministrator
    rw [Nat.and_one_is_mod, Nat.testBit_zero]
    exact decide_eq_decide.mpr (by omega)
  have hflag : authAdministrator &&& authAdministrator ≠ 0 := by decide
  unfold isAdministrator
  rw [isNetworkAllowed, if_pos hflag, hbit]

theorem isAdministrator_addAllowedNetwork
    (networks : List AllowedNetwork) (networkName : String) (flags : ℕ) :
    isAdministrator (addAllowedNetwork networks networkName flags) networkName =
      (isAdministrator networks networkName || flags.testBit 0) := by
  induction networks with
  | nil =>
      rw [addAllowedNetwork, isAdministrator_cons, if_pos rfl]
      rfl
  | cons network networks ih =>
      rw [addAllowedNetwork]
      split
      next hname =>
          rw [isAdministrator_cons, isAdministrator_cons, if_pos hname, if_pos hname,
            Nat.testBit_or]
      next hname =>
          rw [isAdministrator_cons, isAdministrator_cons, if_neg hname,
            if_neg hname, ih]

end Iocom
