import Esp32A2dpPlayer.Bluetooth.AsyncCall
import Esp32A2dpPlayer.Bluetooth.Discovery

/-!
# The whole GAP callback

`bt_app_gap_cb` with all its events. The discovery branches are those of `Discovery`. Besides
them the callback completes `ESP32_BLUETOOTH_GLOBALS.connection` with the outcome of an ACL
connection, answers the requests for a PIN, logs some events and has not been written for others,
where it panics.

A completion is two steps, as in `AsyncCall`, and the callback is still running between them.
-/

namespace Esp32A2dpPlayer

/-- `esp_bt_status_t`. -/
inductive BtStatus where
  | success
  | hciSuccess
  | other (status : UInt32)
  deriving DecidableEq

/-- The result that an ACL event completes `connection` with. -/
def BtStatus.result : BtStatus → Except GapError Unit
  | .success | .hciSuccess => .ok ()
  | .other status => .error (.anyhow ("Status is " ++ toString status))

/-- `esp_bt_gap_cb_event_t`, with the parameters that are read. -/
inductive GapCbEvent where
  | discovery (e : GapEvent)
  | aclConnCmplStat (stat : BtStatus) (handle : UInt16)
  | rmtSrvcs
  | rmtSrvcRec
  | authCmpl
  | pinReq (bda : BDAddr) (min16Digit : Bool)
  | modeChg (mode : UInt32)
  | configEirData
  | other (event : UInt32)

/-- A call of `esp_bt_gap_pin_reply`. -/
structure PinReply where
  bda : BDAddr
  accept : Bool
  pinCodeLen : UInt8
  pinCode : Vector UInt8 16
  deriving DecidableEq

/-- The answer to a request for a PIN: sixteen digits, all of them NUL, or `1234`. -/
def PinReply.of (bda : BDAddr) : Bool → PinReply
  | true => ⟨bda, true, 16, Vector.replicate 16 0⟩
  | false => ⟨bda, true, 4, #v[0x31, 0x32, 0x33, 0x34, 0, 0, 0, 0, 0, 0, 0, 0, 0, 0, 0, 0]⟩

/-- `Esp32BluetoothGlobals`, and what the callback has done besides. -/
structure GapCallback where
  discovery : Discovery
  connection : AsyncCall ℕ ℕ (Except GapError Unit)
  /-- The ACL events so far. -/
  acls : List BtStatus
  /-- The completion that the callback is in. -/
  completing : Option ℕ
  pinReplies : List PinReply
  /-- A panic that is none of those of `discovery`. -/
  panicked : Bool

namespace GapCallback

/-- The globals as they are made. -/
def new : GapCallback where
  discovery := .new
  connection := .new
  acls := []
  completing := none
  pinReplies := []
  panicked := false

/-- `bt_app_gap_cb`, up to the `notify` of a completion, with what `esp_bt_gap_pin_reply` returns
if it is called. -/
def btAppGapCb (g : GapCallback) (e : GapCbEvent) (ret : Except Int32 Unit) :
    Option GapCallback :=
  match g.completing, e with
  | some _, _ => none
  | none, .discovery e => some { g with discovery := g.discovery.btAppGapCb e }
  | none, .aclConnCmplStat stat _ =>
    (g.connection.step (.replace g.acls.length stat.result)).map fun call ↦ { g with
      connection := call
      acls := g.acls ++ [stat]
      completing := some g.acls.length }
  -- `todo!()`
  | none, .rmtSrvcs | none, .rmtSrvcRec | none, .authCmpl => some { g with panicked := true }
  | none, .pinReq bda min16Digit =>
    let g := { g with pinReplies := g.pinReplies ++ [.of bda min16Digit] }
    match ret with
    | .ok _ => some g
    | .error _ => some { g with panicked := true }
  -- logged
  | none, .modeChg _ | none, .configEirData | none, .other _ => some g

/-- The rest of the completion. -/
def notify (g : GapCallback) : Option GapCallback :=
  match g.completing with
  | some k => (g.connection.step (.notify k)).map fun call ↦
      { g with connection := call, completing := none }
  | none => none

variable {g g' : GapCallback} {e : GapCbEvent} {ret : Except Int32 Unit}

/-- **What the callback does to the scans**: an event of the discovery does what it does to them
alone, and no other event touches them. -/
theorem discovery_of_btAppGapCb (h : g.btAppGapCb e ret = some g') :
    (∃ e', e = .discovery e' ∧ g' = { g with discovery := g.discovery.btAppGapCb e' }) ∨
      (∀ e', e ≠ .discovery e') ∧ g'.discovery = g.discovery := by
  rw [btAppGapCb.eq_def] at h
  cases hc : g.completing with
  | some k =>
    rw [hc] at h
    cases h
  | none =>
    rw [hc] at h
    cases e with
    | discovery e' =>
      cases h
      exact .inl ⟨e', rfl, rfl⟩
    | aclConnCmplStat stat handle =>
      obtain ⟨call, -, rfl⟩ := Option.map_eq_some_iff.1 h
      exact .inr ⟨nofun, rfl⟩
    | pinReq bda min16Digit =>
      cases ret <;> cases h <;> exact .inr ⟨nofun, rfl⟩
    | _ =>
      cases h
      exact .inr ⟨nofun, rfl⟩

theorem discovery_of_notify (h : g.notify = some g') : g'.discovery = g.discovery := by
  unfold notify at h
  split at h
  · obtain ⟨call, -, rfl⟩ := Option.map_eq_some_iff.1 h
    rfl
  · cases h

end GapCallback

end Esp32A2dpPlayer
