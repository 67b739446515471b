import UdpForwarder.Process
import UdpForwarder.Lib.Transition

/-! `InjectiveConnectionMapping` under its own interface: what any sequence of `add` and `del`
does to its two maps. -/

namespace UdpForwarder.InjectiveConnectionMapping

open Transition

variable {ClientIdT ServerIdT : Type} [DecidableEq ClientIdT] [DecidableEq ServerIdT]
  [Inhabited ClientIdT] [Inhabited ServerIdT]

/-- A call of the interface; `del` has one overload for each side. -/
inductive Operation (ClientIdT ServerIdT : Type) where
  | add (clientId : ClientIdT) (serverId : ServerIdT)
  | delClient (clientId : ClientIdT)
  | delServer (serverId : ServerIdT)
  deriving DecidableEq

def step (mapping : InjectiveConnectionMapping ClientIdT ServerIdT) :
    Operation ClientIdT ServerIdT → Option (InjectiveConnectionMapping ClientIdT ServerIdT)
  | .add clientId serverId => some (mapping.add clientId serverId)
  | .delClient clientId => some (mapping.delClient clientId)
  | .delServer serverId => some (mapping.delServer serverId)

/-- What a call should do: leave maps that are inverse to each other, and for a `del` take out
exactly the pair of its id, if there is one. -/
def Sound (mapping : InjectiveConnectionMapping ClientIdT ServerIdT) :
    Operation ClientIdT ServerIdT → Prop
  | .add clientId serverId => (mapping.add clientId serverId).MutuallyInverse
  | .delClient clientId => (mapping.delClient clientId).MutuallyInverse ∧
      mapping.delClient clientId = match mapping.client2server clientId with
        | some serverId =>
          ⟨mapping.client2server.erase clientId, mapping.server2client.erase serverId⟩
        | none => mapping
  | .delServer serverId => (mapping.delServer serverId).MutuallyInverse ∧
      mapping.delServer serverId = match mapping.server2client serverId with
        | some clientId =>
          ⟨mapping.client2server.erase clientId, mapping.server2client.erase serverId⟩
        | none => mapping

/-- What a call must find: an `add` two unused ids or the very pair it adds, a `del` its own id or
nothing under the default id that `operator[]` makes up for it. -/
def Careful (mapping : InjectiveConnectionMapping ClientIdT ServerIdT) :
    Operation ClientIdT ServerIdT → Prop
  | .add clientId serverId =>
    (mapping.client2server clientId = none ∧ mapping.server2client serverId = none) ∨
      mapping.client2server clientId = some serverId
  | .delClient clientId =>
    mapping.client2server clientId ≠ none ∨ mapping.server2client default = none
  | .delServer serverId =>
    mapping.server2client serverId ≠ none ∨ mapping.client2server default = none

variable (mapping : InjectiveConnectionMapping ClientIdT ServerIdT)

omit [Inhabited ClientIdT] in
theorem delClient_eq {clientId : ClientIdT} {serverId : ServerIdT}
    (known : mapping.client2server clientId = some serverId) :
    mapping.delClient clientId =
      ⟨mapping.client2server.erase clientId, mapping.server2client.erase serverId⟩ := by
  simp [delClient, known]

omit [Inhabited ClientIdT] in
theorem delClient_absent {clientId : ClientIdT}
    (absent : mapping.client2server clientId = none) :
    mapping.delClient clientId =
      ⟨mapping.client2server.erase clientId, mapping.server2client.erase default⟩ := by
  simp [delClient, absent]

omit [Inhabited ServerIdT] in
theorem delServer_absent {serverId : ServerIdT}
    (absent : mapping.server2client serverId = none) :
    mapping.delServer serverId =
      ⟨mapping.client2server.erase default, mapping.server2client.erase serverId⟩ := by
  simp [delServer, absent]

variable {mapping}

theorem sound_add_iff (inverse : mapping.MutuallyInverse) (clientId : ClientIdT)
    (serverId : ServerIdT) :
    Sound mapping (.add clientId serverId) ↔ Careful mapping (.add clientId serverId) :=
  PartialMap.MutuallyInverse.assign_iff inverse clientId serverId

theorem sound_delClient_iff (inverse : mapping.MutuallyInverse) (clientId : ClientIdT) :
    Sound mapping (.delClient clientId) ↔ Careful mapping (.delClient clientId) := by
  cases image : mapping.client2server clientId with
  | some serverId =>
      have deleted := mapping.delClient_eq image
      have careful : Careful mapping (.delClient clientId) := .inl (by simp [image])
      have kept := PartialMap.MutuallyInverse.erase inverse image
      simp only [Sound, image, deleted, careful, iff_true]
      exact ⟨kept, trivial⟩
  | none =>
      have deleted := mapping.delClient_absent image
      have broken := PartialMap.MutuallyInverse.erase_iff inverse image (default : ServerIdT)
      simp only [Sound, Careful, image, deleted, ne_eq, not_true_eq_false, false_or]
      rw [← broken]
      apply and_iff_left_of_imp
      intro kept
      rw [PartialMap.erase_absent image, PartialMap.erase_absent (broken.mp kept)]

theorem sound_delServer_iff (inverse : mapping.MutuallyInverse) (serverId : ServerIdT) :
    Sound mapping (.delServer serverId) ↔ Careful mapping (.delServer serverId) := by
  cases image : mapping.server2client serverId with
  | some clientId =>
      have deleted := mapping.delServer_eq image
      have careful : Careful mapping (.delServer serverId) := .inl (by simp [image])
      have kept := (PartialMap.MutuallyInverse.erase inverse.symm image).symm
      simp only [Sound, image, deleted, careful, iff_true]
      exact ⟨kept, trivial⟩
  | none =>
      have deleted := mapping.delServer_absent image
      have broken := PartialMap.MutuallyInverse.erase_iff inverse.symm image (default : ClientIdT)
      simp only [Sound, Careful, image, deleted, ne_eq, not_true_eq_false, false_or]
      rw [← broken]
      constructor
      · intro sound
        exact sound.1.symm
      · intro kept
        refine ⟨kept.symm, ?_⟩
        rw [PartialMap.erase_absent image, PartialMap.erase_absent (broken.mp kept)]

/-- One call: it does what it should exactly when it finds what it must. -/
theorem sound_iff (inverse : mapping.MutuallyInverse) (operation : Operation ClientIdT ServerIdT) :
    Sound mapping operation ↔ Careful mapping operation := by
  cases operation with
  | add clientId serverId => exact sound_add_iff inverse clientId serverId
  | delClient clientId => exact sound_delClient_iff inverse clientId
  | delServer serverId => exact sound_delServer_iff inverse serverId

theorem inverse_of_sound {operation : Operation ClientIdT ServerIdT}
    {after : InjectiveConnectionMapping ClientIdT ServerIdT} (sound : Sound mapping operation)
    (taken : step mapping operation = some after) : after.MutuallyInverse := by
  cases operation with
  | add clientId serverId =>
      injection taken with same
      exact same ▸ sound
  | delClient clientId =>
      injection taken with same
      exact same ▸ sound.1
  | delServer serverId =>
      injection taken with same
      exact same ▸ sound.1

/-- A sequence of calls from two empty maps is sound throughout exactly when every call of it is
careful. -/
theorem stays_injective_iff (operations : List (Operation ClientIdT ServerIdT)) :
    Throughout step Sound .empty operations ↔ Throughout step Careful .empty operations := by
  have initial : (empty : InjectiveConnectionMapping ClientIdT ServerIdT).MutuallyInverse :=
    PartialMap.mutuallyInverse_empty
  apply throughout_iff initial
  · intro mapping operation inverse
    exact sound_iff inverse operation
  · intro before operation after _ sound taken
    exact inverse_of_sound sound taken

/-- A second client on the same server id leaves the first client's pair without its other half,
and deleting an unknown client takes the server half of whoever has fd 0. -/
theorem stale_and_erased :
    (∃ mapping : InjectiveConnectionMapping Bytes Fd,
      run step .empty [.add [1] 5, .add [2] 5] = some mapping ∧
      mapping.client2server [1] = some 5 ∧ mapping.server2client 5 = some [2] ∧
      ¬ mapping.MutuallyInverse) ∧
    ∃ mapping : InjectiveConnectionMapping Bytes Fd,
      run step .empty [.add [1] 0, .delClient [2]] = some mapping ∧
      mapping.client2server [1] = some 0 ∧ mapping.server2client 0 = none ∧
      ¬ mapping.MutuallyInverse := by
  constructor
  · refine ⟨_, rfl, rfl, rfl, ?_⟩
    intro inverse
    have back := (inverse [1] 5).mp rfl
    cases back
  · refine ⟨_, rfl, rfl, rfl, ?_⟩
    intro inverse
    have back := (inverse [1] 0).mp rfl
    cases back

end UdpForwarder.InjectiveConnectionMapping
