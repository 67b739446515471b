import Mathlib.Data.List.Forall2

/-! A queue between two ends: what went in, what waits, and what came out, each in its order. -/

namespace UdpForwarder.Fifo

variable {Input Item Output Value : Type*}

/-- The inputs became items one by one. Of the items that are gone from the queue, those that can
be seen at its end became the outputs. -/
def Carried (Enters : Input → Item → Prop) (Leaves : Item → Output → Prop)
    (visible : Item → Bool) (inputs : List Input) (queue : List Item)
    (outputs : List Output) : Prop :=
  ∃ gone, List.Forall₂ Enters inputs (gone ++ queue) ∧
    List.Forall₂ Leaves (gone.filter visible) outputs

variable {Enters Enters' : Input → Item → Prop} {Leaves Leaves' : Item → Output → Prop}
  {visible : Item → Bool} {inputs : List Input} {queue : List Item} {outputs : List Output}

theorem carried_nil : Carried Enters Leaves visible [] [] [] :=
  ⟨[], .nil, .nil⟩

theorem Carried.mono (carried : Carried Enters Leaves visible inputs queue outputs)
    (enters : ∀ input item, Enters input item → Enters' input item)
    (leaves : ∀ item output, Leaves item output → Leaves' item output) :
    Carried Enters' Leaves' visible inputs queue outputs := by
  rcases carried with ⟨gone, front, back⟩
  exact ⟨gone, front.imp enters, back.imp leaves⟩

theorem Carried.push (carried : Carried Enters Leaves visible inputs queue outputs)
    {input : Input} {item : Item} (enters : Enters input item) :
    Carried Enters Leaves visible (inputs ++ [input]) (queue ++ [item]) outputs := by
  rcases carried with ⟨gone, front, back⟩
  refine ⟨gone, ?_, back⟩
  rw [← List.append_assoc]
  exact List.rel_append front (.cons enters .nil)

theorem Carried.pop {item : Item}
    (carried : Carried Enters Leaves visible inputs (item :: queue) outputs)
    (seen : visible item = true) {output : Output} (leaves : Leaves item output) :
    Carried Enters Leaves visible inputs queue (outputs ++ [output]) := by
  rcases carried with ⟨gone, front, back⟩
  refine ⟨gone ++ [item], ?_, ?_⟩
  · rw [List.append_assoc]
    exact front
  · rw [List.filter_append, List.filter_cons_of_pos seen]
    exact List.rel_append back (.cons leaves .nil)

theorem Carried.popHidden {item : Item}
    (carried : Carried Enters Leaves visible inputs (item :: queue) outputs)
    (hidden : visible item = false) : Carried Enters Leaves visible inputs queue outputs := by
  rcases carried with ⟨gone, front, back⟩
  refine ⟨gone ++ [item], ?_, ?_⟩
  · rw [List.append_assoc]
    exact front
  · rw [List.filter_append, List.filter_cons_of_neg (by rw [hidden]; exact Bool.false_ne_true)]
    rw [List.filter_nil, List.append_nil]
    exact back

/-- The part of the traffic that a property selects alike at both ends and in between. -/
theorem Carried.select (carried : Carried Enters Leaves visible inputs queue outputs)
    {atStart : Input → Bool} {between : Item → Bool} {atEnd : Output → Bool}
    (enters : ∀ {input item}, Enters input item → (atStart input ↔ between item))
    (leaves : ∀ {item output}, Leaves item output → (between item ↔ atEnd output)) :
    Carried Enters Leaves visible (inputs.filter atStart) (queue.filter between)
      (outputs.filter atEnd) := by
  rcases carried with ⟨gone, front, back⟩
  refine ⟨gone.filter between, ?_, ?_⟩
  · rw [← List.filter_append]
    exact List.rel_filter (fun _ _ related => enters related) front
  · rw [List.filter_filter]
    have swapped : gone.filter (fun item => visible item && between item) =
        (gone.filter visible).filter between := by
      rw [List.filter_filter]
      congr 1
      funext item
      exact Bool.and_comm _ _
    rw [swapped]
    exact List.rel_filter (fun _ _ related => leaves related) back

theorem map_eq_of_chain {Source Target : Type*} {First : Source → Item → Prop}
    {Second : Item → Target → Prop} {before : Source → Value} {after : Target → Value}
    {sources : List Source} {items : List Item} {targets : List Target}
    (first : List.Forall₂ First sources items) (second : List.Forall₂ Second items targets)
    (same : ∀ source item target, source ∈ sources → First source item → Second item target →
      before source = after target) : sources.map before = targets.map after := by
  induction first generalizing targets with
  | nil =>
      cases second
      rfl
  | @cons source item sources items enters rest ih =>
      cases second with
      | @cons _ target _ targets leaves others =>
          have head := same source item target List.mem_cons_self enters leaves
          have tail := ih others fun source' item' target' member =>
            same source' item' target' (List.mem_cons_of_mem _ member)
          rw [List.map_cons, List.map_cons, head, tail]

/-- Where every item can be seen and keeps its value, the outputs are the first of the inputs. -/
theorem Carried.prefix (carried : Carried Enters Leaves visible inputs queue outputs)
    {before : Input → Value} {after : Output → Value}
    (seen : ∀ input item, input ∈ inputs → Enters input item → visible item = true)
    (same : ∀ input item output, input ∈ inputs → Enters input item → Leaves item output →
      before input = after output) :
    ∃ pending, pending.length = queue.length ∧
      outputs.map after ++ pending = inputs.map before := by
  rcases carried with ⟨gone, front, back⟩
  have split := List.forall₂_take_append inputs gone queue front
  have rest := List.forall₂_drop_append inputs gone queue front
  have all : gone.filter visible = gone := by
    apply List.filter_eq_self.mpr
    intro item member
    rcases List.forall₂_iff_get.mp split with ⟨size, related⟩
    rcases List.getElem_of_mem member with ⟨index, bound, rfl⟩
    have inside := size.symm ▸ bound
    exact seen _ _ (List.mem_of_mem_take (List.getElem_mem inside)) (related index inside bound)
  rw [all] at back
  have equal : (inputs.take gone.length).map before = outputs.map after :=
    map_eq_of_chain split back fun source item target member =>
      same source item target (List.mem_of_mem_take member)
  refine ⟨(inputs.drop gone.length).map before, ?_, ?_⟩
  · rw [List.length_map, rest.length_eq]
  · rw [← equal, ← List.map_append, List.take_append_drop]

/-- Two converting queues in a row, where the second conversion undoes the first: what comes out
and what waits are what went in. -/
theorem restored_in_series {Wire : Type*} {there : Input → Wire} (back : Wire → Input)
    {outputs : List Input} {taken waiting : List Wire} {pending : List Input}
    (first : taken ++ waiting = inputs.map there)
    (second : outputs ++ pending = taken.map back)
    (undone : ∀ input ∈ inputs, back (there input) = input) :
    outputs ++ (pending ++ waiting.map back) = inputs := by
  calc
    outputs ++ (pending ++ waiting.map back) = (taken ++ waiting).map back := by
      rw [List.map_append, ← second, List.append_assoc]
    _ = inputs.map (back ∘ there) := by rw [first, List.map_map]
    _ = inputs.map id := List.map_congr_left undone
    _ = inputs := List.map_id inputs

section Visible

variable (carried : Carried Enters Leaves (fun _ => true) inputs queue outputs)

include carried

theorem Carried.length_eq : inputs.length = outputs.length + queue.length := by
  rcases carried with ⟨gone, front, back⟩
  rw [List.filter_true] at back
  rw [front.length_eq, List.length_append, back.length_eq]

theorem Carried.position {index : Nat} {input : Input} (present : inputs[index]? = some input) :
    ∃ item, Enters input item ∧
      ((∃ output, outputs[index]? = some output ∧ Leaves item output) ∨
        ∃ place, index = outputs.length + place ∧ queue[place]? = some item) := by
  rcases carried with ⟨gone, front, back⟩
  rw [List.filter_true] at back
  rcases List.forall₂_iff_get.mp front with ⟨size, enters⟩
  rcases List.forall₂_iff_get.mp back with ⟨size', leaves⟩
  rcases List.getElem?_eq_some_iff.mp present with ⟨inside, rfl⟩
  have bound : index < (gone ++ queue).length := size ▸ inside
  refine ⟨(gone ++ queue)[index], enters index inside bound, ?_⟩
  by_cases left : index < gone.length
  · have seen : index < outputs.length := size' ▸ left
    refine Or.inl ⟨outputs[index], List.getElem?_eq_getElem seen, ?_⟩
    rw [List.getElem_append_left left]
    exact leaves index left seen
  · have later : gone.length ≤ index := Nat.le_of_not_lt left
    refine Or.inr ⟨index - gone.length, ?_, ?_⟩
    · rw [← size', Nat.add_sub_of_le later]
    · rw [← List.getElem?_append_right later, List.getElem?_eq_getElem bound]

theorem Carried.through (empty : queue = []) :
    List.Forall₂ (fun input output => ∃ item, Enters input item ∧ Leaves item output) inputs
      outputs := by
  rcases carried with ⟨gone, front, back⟩
  rw [List.filter_true] at back
  rw [empty, List.append_nil] at front
  induction front generalizing outputs with
  | nil =>
      cases back
      exact .nil
  | cons enters rest ih =>
      cases back with
      | cons leaves others => exact .cons ⟨_, enters, leaves⟩ (ih others)

end Visible

section Addressed

variable {Address Data : Type*} [DecidableEq Address]

def heldFor (packets : List (Address × Data)) (address : Address) : List Data :=
  (packets.filter (·.1 = address)).map Prod.snd

variable {packets : List (Address × Data)} {address other : Address} {data : Data}

@[simp] theorem heldFor_append (front back : List (Address × Data)) (address : Address) :
    heldFor (front ++ back) address = heldFor front address ++ heldFor back address := by
  rw [heldFor, List.filter_append, List.map_append, heldFor, heldFor]

theorem heldFor_single (address : Address) (data : Data) (other : Address) :
    heldFor [(address, data)] other = if address = other then [data] else [] := by
  by_cases same : address = other
  · simp [heldFor, same]
  · simp [heldFor, same]

theorem heldFor_nil_of (absent : ∀ packet ∈ packets, packet.1 ≠ address) :
    heldFor packets address = [] := by
  rw [heldFor, List.filter_eq_nil_iff.mpr, List.map_nil]
  intro packet member
  simpa using absent packet member

variable [BEq (Address × Data)] [LawfulBEq (Address × Data)]

theorem heldFor_erase_first
    (oldest : packets.find? (·.1 = address) = some (address, data)) :
    heldFor packets address = data :: heldFor (packets.erase (address, data)) address := by
  have first : (packets.filter (·.1 = address)).head? = some (address, data) := by
    rw [List.head?_filter]
    exact oldest
  rcases List.head?_eq_some_iff.mp first with ⟨rest, split⟩
  rw [heldFor, heldFor, ← List.erase_filter, split, List.erase_cons_head]
  rfl

theorem heldFor_erase_other (different : address ≠ other) :
    heldFor (packets.erase (address, data)) other = heldFor packets other := by
  rw [heldFor, heldFor, ← List.erase_filter, List.erase_of_not_mem]
  intro member
  have same := (List.mem_filter.mp member).2
  exact different (of_decide_eq_true same)

end Addressed

end UdpForwarder.Fifo
