import RuntimeEnforcer.Manager.World

/-!
# Modes and settings

`internal/types/policymode` and `internal/bpf/policy_settings_operation.go`: a policy's mode in
its three forms, and the one entry of `policy_settings_map` a policy id has.
-/

set_option autoImplicit false

namespace RuntimeEnforcer

open Lib

inductive Mode
  | monitor
  | protect
  deriving DecidableEq, Repr

def Mode.string : Mode → String
  | .monitor => "monitor"
  | .protect => "protect"

def Mode.toUInt8 : Mode → UInt8
  | .monitor => policyModeMonitor
  | .protect => policyModeProtect

/-- `policymode.FromUint8`; any other value panics. -/
def Mode.fromUint8 (v : UInt8) : Option Mode :=
  if v = policyModeMonitor then some .monitor
  else if v = policyModeProtect then some .protect
  else none

@[simp] theorem Mode.fromUint8_toUInt8 (mode : Mode) : Mode.fromUint8 mode.toUInt8 = some mode := by
  cases mode <;> rfl

/-- The entry for a mode and a foreign-root option. -/
def settingsOf (mode : Mode) (allowForeignRoot : Bool) : PolicySettings where
  mode := mode.toUInt8
  allowForeignRoot := if allowForeignRoot then 1 else 0

def updatePolicySettings (env : ManagerEnv) (id : PolicyID) (mode : Mode)
    (allowForeignRoot : Bool) : BpfM Unit :=
  syscall env
    (.updateSettings id (env.mapString "policy_settings_map") mode.string allowForeignRoot)
    fun m => m.setSettings id (some (settingsOf mode allowForeignRoot))

def deletePolicySettings (env : ManagerEnv) (id : PolicyID) : BpfM Unit :=
  syscall env (.deleteSettings id (env.mapString "policy_settings_map")) fun m =>
    m.setSettings id none

inductive PolicySettingsOperation
  | updateSettings
  | deleteSettings
  deriving DecidableEq, Repr

def policySettingsUpdate (env : ManagerEnv) (id : PolicyID) (mode : Mode)
    (allowForeignRoot : Bool) : PolicySettingsOperation → BpfM Unit
  | .updateSettings => handleErrOnShutdown env (updatePolicySettings env id mode allowForeignRoot)
  | .deleteSettings => handleErrOnShutdown env (deletePolicySettings env id)

end RuntimeEnforcer
