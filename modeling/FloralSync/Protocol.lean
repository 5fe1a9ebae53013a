import FloralSync.Chrono
import FloralSync.Text

/-! # The messages of the sync protocol (`protocol.rs`) -/

namespace FloralSync

structure SyncChange (τ : Type) where
  id : String
  title : String
  content : String
  category : String
  createdAt : τ
  updatedAt : τ
  deletedAt : Option τ
  contentHash : String
  deviceId : String
deriving DecidableEq

structure RevisionedChange (τ : Type) where
  revision : Nat
  note : SyncChange τ
deriving DecidableEq

structure ChangesResponse (τ : Type) where
  revision : Nat
  changes : List (RevisionedChange τ)
deriving DecidableEq

structure PushRequest (τ : Type) where
  deviceId : String
  changes : List (SyncChange τ)
deriving DecidableEq

structure PushResponse where
  revision : Nat
deriving DecidableEq

structure WaitResponse where
  revision : Nat
  changed : Bool
deriving DecidableEq

variable {τ : Type}

def changeTime (change : SyncChange τ) : τ := change.deletedAt.getD change.updatedAt

/-- A change without a device id comes from the device that sent the request. -/
def fillDevice (deviceId : String) (change : SyncChange τ) : SyncChange τ :=
  if (trim change.deviceId).isEmpty then { change with deviceId := deviceId } else change

@[simp] theorem fillDevice_id (deviceId : String) (change : SyncChange τ) :
    (fillDevice deviceId change).id = change.id := by
  unfold fillDevice; split <;> rfl

@[simp] theorem fillDevice_deletedAt (deviceId : String) (change : SyncChange τ) :
    (fillDevice deviceId change).deletedAt = change.deletedAt := by
  unfold fillDevice; split <;> rfl

@[simp] theorem changeTime_fillDevice (deviceId : String) (change : SyncChange τ) :
    changeTime (fillDevice deviceId change) = changeTime change := by
  unfold fillDevice; split <;> rfl

/-- The changes of a request with their device ids filled in. -/
def PushRequest.filled (request : PushRequest τ) : List (SyncChange τ) :=
  request.changes.map (fillDevice request.deviceId)

variable [Chrono τ]

/-- All timestamps of the change have a four-digit UTC year. -/
structure SyncChange.InRange (change : SyncChange τ) : Prop where
  createdAt : FourDigitYear change.createdAt
  updatedAt : FourDigitYear change.updatedAt
  deletedAt : ∀ t ∈ change.deletedAt, FourDigitYear t

instance : DecidablePred (SyncChange.InRange (τ := τ)) := fun c =>
  decidable_of_iff (FourDigitYear c.createdAt ∧ FourDigitYear c.updatedAt ∧
    ∀ t ∈ c.deletedAt, FourDigitYear t) ⟨fun ⟨h₁, h₂, h₃⟩ => ⟨h₁, h₂, h₃⟩, fun ⟨h₁, h₂, h₃⟩ => ⟨h₁, h₂, h₃⟩⟩

theorem SyncChange.inRange_fillDevice {deviceId : String} {change : SyncChange τ} :
    (fillDevice deviceId change).InRange ↔ change.InRange := by
  unfold fillDevice
  split
  · exact ⟨fun ⟨h₁, h₂, h₃⟩ => ⟨h₁, h₂, h₃⟩, fun ⟨h₁, h₂, h₃⟩ => ⟨h₁, h₂, h₃⟩⟩
  · exact Iff.rfl

def PushRequest.InRange (request : PushRequest τ) : Prop := ∀ c ∈ request.changes, c.InRange

instance (request : PushRequest τ) : Decidable request.InRange :=
  inferInstanceAs (Decidable (∀ c ∈ request.changes, c.InRange))

theorem PushRequest.InRange.filled {request : PushRequest τ} (h : request.InRange) :
    ∀ c ∈ request.filled, c.InRange := by
  intro c hc
  obtain ⟨d, hd, rfl⟩ := List.mem_map.1 hc
  exact SyncChange.inRange_fillDevice.2 (h d hd)

end FloralSync
