import Mathlib.Logic.Function.Basic

/-!
# Driver lifecycle

The driver, the state and the power of a device are separate fields.
-/

namespace HnxKernel

open Function

inductive DeviceState
  | discovered | matched | initialized | active | suspended | failed | removed

inductive PowerState
  | d0 | d1 | d2 | d3

structure Driver where
  type : Nat
  hasProbe : Bool

def Driver.asked (drv : Driver) (type : Nat) : Bool := drv.type == type && drv.hasProbe

/-- `awake`: bound or resumed last; `refused`: the last `driver_probe` found no driver. -/
structure Device where
  type : Nat
  driver : Option Driver
  state : DeviceState
  power : PowerState
  (awake refused : Bool)

namespace Device

variable {n : Nat} (drivers : List Driver)

def taker (probe : Driver → Int) (dev : Device) : Option Driver :=
  drivers.find? fun drv => drv.asked dev.type && probe drv == 0

def driverProbe (probe : Driver → Int) (dev : Device) : Device :=
  match taker drivers probe dev with
  | some drv => ⟨dev.type, some drv, .active, .d0, true, false⟩
  | none =>
    let asked := drivers.any fun drv => drv.asked dev.type
    { dev with state := if asked then .matched else .discovered, refused := true }

def driverRemove (dev : Device) : Device := ⟨dev.type, none, .removed, .d3, false, false⟩

def driverSuspend (dev : Device) : Device :=
  { dev with power := .d3, state := .suspended, awake := false, refused := false }

def driverResume (dev : Device) : Device :=
  { dev with power := .d0, state := .active, awake := true, refused := false }

/-- The calls on `n` registered devices, with what the drivers answer. -/
inductive Call (n : Nat)
  | probeAll (probe : Fin n → Driver → Int)
  | probe (i : Fin n) (probe : Driver → Int)
  | remove (i : Fin n)
  | suspend (i : Fin n)
  | resume (i : Fin n)

/-- `driver_probe_all` binds, but leaves the state and the power as they are. -/
def perform (devs : Fin n → Device) : Call n → Fin n → Device
  | .probeAll probe => fun i => match (devs i).driver, taker drivers (probe i) (devs i) with
    | none, some drv => { devs i with driver := some drv, awake := true, refused := false }
    | _, _ => devs i
  | .probe i probe => update devs i (driverProbe drivers probe (devs i))
  | .remove i => update devs i (devs i).driverRemove
  | .suspend i => update devs i (devs i).driverSuspend
  | .resume i => update devs i (devs i).driverResume

def Conforms (dev : Device) : Prop :=
  (dev.state = .active ↔ dev.driver.isSome ∧ dev.awake ∧ dev.power = .d0) ∧
  (dev.state = .suspended → dev.driver.isSome ∧ dev.power = .d3) ∧
  (dev.state = .removed → dev.driver = none ∧ dev.power = .d3) ∧
  (dev.refused → dev.driver = none ∧ dev.state ≠ .matched)

/-- Only bound devices are suspended and resumed, and only `driver_probe` binds. -/
def Careful (devs : Fin n → Device) : Call n → Prop
  | .probeAll probe => ∀ i, (devs i).driver = none → taker drivers (probe i) (devs i) = none
  | .probe i probe => (devs i).driver = none ∧
    ((drivers.any fun drv => drv.asked (devs i).type) → taker drivers probe (devs i) ≠ none)
  | .remove _ => True
  | .suspend i | .resume i => (devs i).driver.isSome

def CarefulRun (devs : Fin n → Device) : List (Call n) → Prop
  | [] => True
  | call :: calls => Careful drivers devs call ∧ CarefulRun (perform drivers devs call) calls

variable {drivers} {devs : Fin n → Device}

lemma Conforms.perform {call : Call n} (careful : Careful drivers devs call)
    (conforms : ∀ i, (devs i).Conforms) (i : Fin n) : (perform drivers devs call i).Conforms := by
  have updated {k : Fin n} {dev : Device} (new : dev.Conforms) :
      (update devs k dev i).Conforms := by
    by_cases same : i = k
    · rw [same, update_self]
      exact new
    · rw [update_of_ne same]
      exact conforms i
  cases call with
  | probeAll probe =>
    -- bound devices are passed over, and no driver takes another one
    cases bound : (devs i).driver with
    | some drv => simpa only [Device.perform, bound] using conforms i
    | none => simpa only [Device.perform, bound, careful i bound] using conforms i
  | probe k probe =>
    obtain ⟨unbound, taken⟩ := careful
    refine updated ?_
    rw [driverProbe]
    cases found : taker drivers probe (devs k) with
    | some drv => simp [Conforms]
    | none =>
      -- no driver was asked, so the state is DISCOVERED and not MATCHED
      have notAsked := mt taken (not_not.mpr found)
      simp only [notAsked]
      simp [Conforms, unbound]
  | remove k => exact updated (by simp [driverRemove, Conforms])
  | suspend k => exact updated (by simp [driverSuspend, Conforms, show _ = _ from careful])
  | resume k => exact updated (by simp [driverResume, Conforms, show _ = _ from careful])

theorem conforms_run (calls : List (Call n))
    (start : ∀ i, devs i = ⟨(devs i).type, none, .discovered, .d0, false, false⟩)
    (careful : CarefulRun drivers devs calls) (i : Fin n) :
    (calls.foldl (perform drivers) devs i).Conforms := by
  have conforms : ∀ i, (devs i).Conforms := fun i => by rw [start i]; simp [Conforms]
  clear start
  induction calls generalizing devs with
  | nil => exact conforms i
  | cons call calls ih => exact ih careful.2 (Conforms.perform careful.1 conforms)

def newDevices (i : Fin 2) : Device := ⟨i, none, .discovered, .d0, false, false⟩

/-- One device is bound, and no driver takes the other one. -/
theorem conforms_run_probed :
    let run := ([.probe 1 fun _ => 0, .probeAll fun _ _ => 0, .suspend 1, .resume 1, .remove 1] :
      List (Call 2)).foldl (perform [⟨1, true⟩]) newDevices
    (run 0).Conforms ∧ (run 1).Conforms := by
  have conforms := conforms_run _ (fun _ => rfl : ∀ i, newDevices i = _) (show CarefulRun
    [⟨1, true⟩] newDevices [.probe 1 fun _ => 0, .probeAll fun _ _ => 0, .suspend 1, .resume 1,
      .remove 1] by
    simp [CarefulRun, Careful, Device.perform, driverProbe, taker, Driver.asked, newDevices,
      driverSuspend])
  exact ⟨conforms 0, conforms 1⟩

theorem not_conforms_resumed :
    ¬ (([.resume 0] : List (Call 2)).foldl (perform []) newDevices 0).Conforms := by
  simp [Device.perform, driverResume, newDevices, Conforms]

end Device

end HnxKernel
