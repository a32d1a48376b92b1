import Playback.Program.Shelf

/-! What a shelf keeps: programs themselves, whatever their results, and the slots of tickets. -/

set_option autoImplicit false

namespace Playback

theorem Program.completeRun_kept (p : Program) (response : Response) :
    (p.completeRun response).2.id = p.id ∧
      (p.completeRun response).2.instructions = p.instructions := by
  unfold completeRun
  dsimp only
  split
  · exact ⟨rfl, rfl⟩
  · split <;> exact ⟨rfl, rfl⟩

namespace Shelf

/-- The same programs, results apart. -/
def Alike (shelf other : Shelf) : Prop :=
  ∀ id, (other.get id).id = (shelf.get id).id ∧
    (other.get id).instructions = (shelf.get id).instructions

theorem alike_refl (shelf : Shelf) : shelf.Alike shelf :=
  fun _ => ⟨rfl, rfl⟩

theorem alike_put {shelf : Shelf} {id : ProgramId} {program : Program}
    (same : program.id = (shelf.get id).id)
    (stream : program.instructions = (shelf.get id).instructions) :
    shelf.Alike (shelf.put id program) := by
  intro other
  rw [get_put]
  by_cases here : other = id
  · subst here
    rw [if_pos rfl]
    exact ⟨same, stream⟩
  · rw [if_neg here]
    exact ⟨rfl, rfl⟩

theorem alike_beginRun (shelf : Shelf) (id : ProgramId) :
    shelf.Alike (shelf.modify id Program.beginRun) :=
  alike_put rfl rfl

theorem alike_completeRun (shelf : Shelf) (id : ProgramId) (response : Response) :
    shelf.Alike (shelf.put id ((shelf.get id).completeRun response).2) :=
  alike_put (Program.completeRun_kept _ _).1 (Program.completeRun_kept _ _).2

def slots (shelf : Shelf) : List Slot :=
  shelf.programs.entries.flatMap fun (_, program) => program.slots

theorem slot?_eq_find? (shelf : Shelf) (ticket : TicketId) :
    shelf.slot? ticket = shelf.slots.find? fun slot => slot.ticket == ticket :=
  List.find?_flatMap.symm

theorem slot?_of_nodup {shelf : Shelf} (distinct : (shelf.slots.map Slot.ticket).Nodup)
    {slot : Slot} (member : slot ∈ shelf.slots) : shelf.slot? slot.ticket = some slot := by
  rw [slot?_eq_find?]
  obtain ⟨before, after, apart⟩ := List.append_of_mem member
  rw [apart] at distinct ⊢
  rw [List.find?_eq_some_iff_append]
  refine ⟨by simp, before, after, rfl, fun other earlier => ?_⟩
  simp only [List.map_append, List.map_cons] at distinct
  have foreign := (List.nodup_append.1 distinct).2.2 other.ticket (List.mem_map_of_mem earlier)
    slot.ticket List.mem_cons_self
  simpa using foreign

theorem mem_slots {shelf : Shelf} {id : ProgramId} {slot : Slot}
    (member : slot ∈ (shelf.get id).slots) : slot ∈ shelf.slots := by
  obtain ⟨⟨entries⟩, issued⟩ := shelf
  simp only [get, Table.get?, slots, List.mem_flatMap] at member ⊢
  induction entries with
  | nil => cases member
  | cons entry rest ih =>
    unfold Table.lookup? at member
    split at member
    · exact ⟨entry, List.mem_cons_self, member⟩
    · obtain ⟨other, there, inside⟩ := ih member
      exact ⟨other, List.mem_cons_of_mem _ there, inside⟩

theorem slot?_of_get {shelf : Shelf} (distinct : (shelf.slots.map Slot.ticket).Nodup)
    {id : ProgramId} {slot : Slot} (member : slot ∈ (shelf.get id).slots) :
    shelf.slot? slot.ticket = some slot :=
  slot?_of_nodup distinct (mem_slots member)

theorem map_slots_put {α : Type} {view : Slot → α} {shelf : Shelf} {id : ProgramId}
    {program : Program} (same : program.slots.map view = (shelf.get id).slots.map view) :
    (shelf.put id program).slots.map view = shelf.slots.map view := by
  obtain ⟨⟨entries⟩, issued⟩ := shelf
  simp only [get, put, Table.get?, Table.insert, slots] at same ⊢
  induction entries with
  | nil => simpa [Table.replace, Table.lookup?] using same
  | cons entry rest ih =>
    unfold Table.lookup? at same
    unfold Table.replace
    by_cases here : id = entry.1
    · rw [if_pos here] at same ⊢
      simp only [List.flatMap_cons, List.map_append, same, Option.getD_some]
    · rw [if_neg here] at same ⊢
      simp only [List.flatMap_cons, List.map_append, ih same]

theorem tickets_put {shelf : Shelf} {id : ProgramId} {program : Program}
    (same : program.slots.map Slot.reset = (shelf.get id).slots.map Slot.reset) :
    (shelf.put id program).slots.map Slot.ticket = shelf.slots.map Slot.ticket := by
  apply map_slots_put
  simpa [Function.comp_def, Slot.reset] using congrArg (List.map Slot.ticket) same

def ofBuilders (builders : List Builder) : Shelf :=
  builders.foldl (fun shelf builder => (shelf.add builder).2) {}

theorem get_add (shelf : Shelf) (builder : Builder) (id : ProgramId) :
    (shelf.add builder).2.get id =
      if id = shelf.issued + 1 then .ofBuilder (shelf.issued + 1) builder else shelf.get id :=
  shelf.get_put (shelf.issued + 1) id (.ofBuilder (shelf.issued + 1) builder)

theorem get_ofBuilders (builders : List Builder) (id : ProgramId) :
    (ofBuilders builders).get id = { id } ∨
      ∃ builder ∈ builders, (ofBuilders builders).get id = .ofBuilder id builder := by
  -- Over the builders left, from any shelf.
  have onward (builders : List Builder) : ∀ shelf : Shelf,
      let after := builders.foldl (fun shelf builder => (shelf.add builder).2) shelf
      after.get id = shelf.get id ∨ ∃ builder ∈ builders, after.get id = .ofBuilder id builder := by
    induction builders with
    | nil => exact fun shelf => .inl rfl
    | cons builder rest ih =>
      intro shelf
      rcases ih (shelf.add builder).2 with kept | ⟨other, member, same⟩
      · rw [get_add] at kept
        by_cases here : id = shelf.issued + 1
        · rw [if_pos here, ← here] at kept
          exact .inr ⟨builder, List.mem_cons_self, kept⟩
        · rw [if_neg here] at kept
          exact .inl kept
      · exact .inr ⟨other, List.mem_cons_of_mem _ member, same⟩
  exact onward builders {}

-- What holds of every finished builder, and of a program without content, holds on the shelf.
theorem forall_ofBuilders {P : ProgramId → Program → Prop} (bare : ∀ id, P id { id })
    (built : ∀ id builder, P id (.ofBuilder id builder)) (builders : List Builder) :
    ∀ id, P id ((ofBuilders builders).get id) := by
  intro id
  rcases get_ofBuilders builders id with same | ⟨builder, -, same⟩
  · exact same ▸ bare id
  · exact same ▸ built id builder

theorem named_ofBuilders (builders : List Builder) :
    ∀ id, ((ofBuilders builders).get id).id = id :=
  forall_ofBuilders (P := fun id program => program.id = id) (fun _ => rfl) (fun _ _ => rfl)
    builders

end Shelf

end Playback
