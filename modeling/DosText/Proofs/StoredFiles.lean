import DosText.Proofs.Transfers

/-! What the transfers of files between open files and the store leave in the store, where each
call does what it is for. Files that are stored in turn are stored independently, since no two open
files have the same name. -/

namespace DosText

open Peripherals (Call Contents applyAll)

/-- The bytes of a file, if it has any yet. -/
def Buffer.bytes? (buffer : Buffer) : Option Bytes := buffer.content.map PackedBytes.toBytes

theorem Buffer.bytes?_of_isSome {buffer : Buffer} (content : buffer.content.isSome = true) :
    buffer.bytes? = some buffer.bytes := by
  obtain ⟨packed, content?⟩ := Option.isSome_iff_exists.mp content
  rw [bytes?, bytes, content?]
  rfl

theorem Buffer.getD_bytes? (buffer : Buffer) : buffer.bytes?.getD [] = buffer.bytes := by
  rw [bytes?, bytes]
  cases buffer.content <;> rfl

/-- What a store holds once an open file is stored in it. -/
def Buffer.settle (buffer : Buffer) (held : Contents) : Contents :=
  match buffer.bytes? with
  | some bytes => Function.update held buffer.name (some bytes)
  | none => held

/-- What a store holds once open files are stored in it in turn. -/
def Buffer.settleAll (buffers : List Buffer) (held : Contents) : Contents :=
  buffers.foldl (fun held buffer => buffer.settle held) held

namespace Buffer

variable {held : Contents}

theorem settle_apply (buffer : Buffer) (held : Contents) (name : Name) :
    buffer.settle held name =
      if name = buffer.name then buffer.bytes?.or (held name) else held name := by
  unfold settle
  cases bytes? : buffer.bytes? with
  | none =>
    simp only [Option.none_or, ite_self]
  | some bytes =>
    simp only [Option.some_or]
    rw [Function.update_apply]

@[simp] theorem settleAll_nil (held : Contents) : settleAll [] held = held := rfl

@[simp] theorem settleAll_cons (buffer : Buffer) (rest : List Buffer) (held : Contents) :
    settleAll (buffer :: rest) held = settleAll rest (buffer.settle held) := rfl

/-- Storing files leaves every other name alone. -/
theorem settleAll_of_not_mem {buffers : List Buffer} {name : Name}
    (absent : ∀ buffer ∈ buffers, buffer.name ≠ name) (held : Contents) :
    settleAll buffers held name = held name := by
  induction buffers generalizing held with
  | nil => rfl
  | cons buffer rest ih =>
    have other : name ≠ buffer.name := (absent buffer List.mem_cons_self).symm
    rw [settleAll_cons, ih fun later member => absent later (List.mem_cons_of_mem _ member),
      settle_apply, if_neg other]

/-- A file that is stored among others of different names is what the store holds then. -/
theorem settleAll_of_mem {buffers : List Buffer} (distinct : (buffers.map Buffer.name).Nodup)
    {buffer : Buffer} (member : buffer ∈ buffers) (held : Contents) :
    settleAll buffers held buffer.name = buffer.bytes?.or (held buffer.name) := by
  induction buffers generalizing held with
  | nil => cases member
  | cons first rest ih =>
    rw [List.map_cons, List.nodup_cons] at distinct
    obtain ⟨alone, later⟩ := distinct
    rw [settleAll_cons]
    rcases List.mem_cons.mp member with rfl | among
    · have absent : ∀ other ∈ rest, other.name ≠ buffer.name := by
        intro other found same
        exact alone (List.mem_map.mpr ⟨other, found, same⟩)
      rw [settleAll_of_not_mem absent, settle_apply, if_pos rfl]
    · have differ : buffer.name ≠ first.name := by
        intro same
        exact alone (List.mem_map.mpr ⟨buffer, among, same⟩)
      rw [ih later among, settle_apply, if_neg differ]

/-- No two files have the same name if they are listed under their own names. -/
theorem nodup_names {buffers : Catalog Name Buffer}
    (named : ∀ name buffer, buffers.find? name = some buffer → buffer.name = name) :
    ((buffers.entries.map Prod.snd).map Buffer.name).Nodup := by
  have names : (buffers.entries.map Prod.snd).map Buffer.name =
      buffers.entries.map Prod.fst := by
    rw [List.map_map]
    refine List.map_congr_left ?_
    intro entry member
    exact named entry.1 entry.2 ((Catalog.find?_eq_some_iff _ _ _).mpr member)
  rw [names]
  exact buffers.distinct

/-- What the store holds of each name once all open files are stored in it, in whatever order. -/
theorem settleAll_visited {buffers : Catalog Name Buffer} {visited : List Buffer}
    (named : ∀ name buffer, buffers.find? name = some buffer → buffer.name = name)
    (perm : visited.Perm (buffers.entries.map Prod.snd)) (held : Contents) (name : Name) :
    settleAll visited held name = ((buffers.find? name).bind Buffer.bytes?).or (held name) := by
  have distinct := (perm.map Buffer.name).nodup_iff.mpr (nodup_names named)
  cases found : buffers.find? name with
  | some buffer =>
    have listed : buffer ∈ buffers.entries.map Prod.snd :=
      List.mem_map.mpr ⟨(name, buffer), (Catalog.find?_eq_some_iff _ _ _).mp found, rfl⟩
    have settled := settleAll_of_mem distinct (perm.mem_iff.mpr listed) held
    rw [named name buffer found] at settled
    exact settled
  | none =>
    refine settleAll_of_not_mem ?_ held
    intro buffer member same
    have there := Session.find?_of_listed named (perm.mem_iff.mp member)
    rw [same, found] at there
    cases there

/-- Storing files of different names changes nothing exactly if each is already stored. -/
theorem settleAll_eq_self_iff {buffers : List Buffer}
    (distinct : (buffers.map Buffer.name).Nodup) (held : Contents) :
    settleAll buffers held = held ↔
      ∀ buffer ∈ buffers, ∀ bytes, buffer.bytes? = some bytes →
        held buffer.name = some bytes := by
  constructor
  · intro same buffer member bytes bytes?
    rw [← same, settleAll_of_mem distinct member, bytes?]
    rfl
  · intro stored
    funext name
    by_cases listed : ∃ buffer ∈ buffers, buffer.name = name
    · obtain ⟨buffer, member, rfl⟩ := listed
      rw [settleAll_of_mem distinct member]
      cases bytes? : buffer.bytes? with
      | none => rfl
      | some bytes => rw [stored buffer member bytes bytes?, Option.some_or]
    · exact settleAll_of_not_mem (fun buffer member same => listed ⟨buffer, member, same⟩) held

end Buffer

namespace TextFile

variable {name : Name} {calls : List Call} {held : Contents}

/-- A file that cannot be loaded has not been stored on the way. -/
theorem Loads.applyAll_of_fault {fault : Fault} (loads : Loads name calls (.error fault)) :
    applyAll calls held = held := by
  cases loads <;> rfl

theorem Flushes.applyAll {buffer : Buffer} (flushes : Flushes buffer calls (.ok ())) :
    Peripherals.applyAll calls held = buffer.settle held := by
  cases flushes with
  | empty none =>
    unfold Buffer.settle Buffer.bytes?
    rw [none]
    rfl
  | stored some =>
    unfold Buffer.settle Buffer.bytes?
    rw [some]
    rfl

theorem Flushes.applyAll_of_fault {buffer : Buffer} {fault : Fault}
    (flushes : Flushes buffer calls (.error fault)) : Peripherals.applyAll calls held = held := by
  cases flushes
  rfl

theorem FlushesAll.applyAll {buffers : List Buffer}
    (flushes : FlushesAll buffers calls (.ok ())) :
    Peripherals.applyAll calls held = Buffer.settleAll buffers held := by
  induction buffers generalizing calls held with
  | nil =>
    cases flushes
    rfl
  | cons buffer rest ih =>
    cases flushes with
    | cons flushed others =>
      rw [Peripherals.applyAll_append, flushed.applyAll, ih others, Buffer.settleAll_cons]

/-- Files that cannot all be stored: those before the first that cannot be are stored. -/
theorem FlushesAll.split_of_fault {buffers : List Buffer} {fault : Fault}
    (flushes : FlushesAll buffers calls (.error fault)) :
    ∃ stored refused rest begun ended, buffers = stored ++ refused :: rest ∧
      calls = begun ++ ended ∧ FlushesAll stored begun (.ok ()) ∧
      Flushes refused ended (.error fault) := by
  induction buffers generalizing calls with
  | nil => cases flushes
  | cons buffer rest ih =>
    cases flushes with
    | @cons _ _ first later _ flushed others =>
      obtain ⟨stored, refused, behind, begun, ended, listed, made, all, failed⟩ := ih others
      refine ⟨buffer :: stored, refused, behind, first ++ begun, ended, ?_, ?_,
        .cons flushed all, failed⟩
      · rw [listed, List.cons_append]
      · rw [made, List.append_assoc]
    | refused failed => exact ⟨[], buffer, rest, [], calls, rfl, rfl, .nil, failed⟩

end TextFile

end DosText
