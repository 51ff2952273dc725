import ChipEight.Terminal.Sink
import Mathlib.Tactic

/-!
# Writing to a sink that gets full

A sink with room for `n` bytes ends up with the first `n` bytes of everything that was written to it
(`Took.write`). It does not matter how the bytes are cut into pieces: to write the pieces one after
the other, up to the first that is not taken whole, is to write all of them at once
(`writeEach_eq`).
-/

namespace ChipEight.Sink

variable {s : Sink} {room : Option ℕ} {data more : List UInt8}

/-- What is kept of some bytes where there is that much room. -/
def kept (room : Option ℕ) (data : List UInt8) : List UInt8 :=
  match room with
  | none => data
  | some n => data.take n

theorem kept_append (room : Option ℕ) (data more : List UInt8) :
    kept room (data ++ more) = kept room data ++ kept (room.map (· - data.length)) more := by
  rcases room with _ | n
  · rfl
  · exact List.take_append

theorem kept_of_fits (h : ∀ n ∈ room, data.length ≤ n) : kept room data = data := by
  rcases room with _ | n
  · rfl
  · exact List.take_of_length_le (h n rfl)

theorem write_fst (s : Sink) (data : List UInt8) :
    (s.write data).1 =
      { s with
        written := s.written ++ kept s.room data
        room := s.room.map (· - data.length) } := by
  rcases hroom : s.room with _ | n <;> simp [write, kept, hroom]

theorem write_snd (s : Sink) (data : List UInt8) :
    (s.write data).2 =
      if ∀ n ∈ s.room, data.length ≤ n then .ok () else .error .full := by
  rcases hroom : s.room with _ | n <;> simp [write, hroom]

theorem write_ok_iff (s : Sink) (data : List UInt8) :
    (s.write data).2 = .ok () ↔ ∀ n ∈ s.room, data.length ≤ n := by
  rw [write_snd]
  split_ifs with h
  · exact iff_of_true rfl h
  · exact iff_of_false nofun h

theorem send_fst (s : Sink) (data : List UInt8) : (s.send data).1 = (s.write data).1 := rfl

theorem send_ok_iff (s : Sink) (data : List UInt8) :
    (s.send data).2 = .ok () ↔ (s.write data).2 = .ok () ∧ s.refusesFlush = false := by
  unfold send
  rcases hwrite : s.write data with ⟨s', e | ⟨⟩⟩
  · simp
  · have hfst : (s.write data).1 = s' := congrArg Prod.fst hwrite
    have hsame : s'.refusesFlush = s.refusesFlush := by rw [← hfst, write_fst]
    simp [flush, hsame]

/-! ## Pieces -/

/-- Writes pieces one after the other, up to the first that is not taken whole. -/
def writeEach (s : Sink) : List (List UInt8) → Sink × Except SinkError Unit
  | [] => (s, .ok ())
  | piece :: pieces =>
    match s.write piece with
    | (s, .ok ()) => s.writeEach pieces
    | (s, .error e) => (s, .error e)

theorem write_nil (s : Sink) : s.write [] = (s, .ok ()) := by
  have hfst : (s.write []).1 = s := by
    rw [write_fst]
    rcases s with ⟨written, _ | n, refusesFlush⟩ <;> simp [kept]
  exact Prod.ext hfst ((write_ok_iff s []).mpr fun n _ => Nat.zero_le n)

/-- Where the first part is taken whole, the second part is written to what is left of the sink;
where it is not, there is no room for the second part. -/
theorem write_append (s : Sink) (data more : List UInt8) :
    s.write (data ++ more) =
      match s.write data with
      | (s, .ok ()) => s.write more
      | (s, .error e) => (s, .error e) := by
  rcases s with ⟨written, room, refusesFlush⟩
  rcases room with _ | n
  · simp [write, ← Array.toList_inj]
  · by_cases hfits : data.length ≤ n
    · have hsum : data.length + more.length ≤ n ↔ more.length ≤ n - data.length := by omega
      simp [write, hfits, hsum, ← Array.toList_inj, List.take_append, Nat.sub_sub]
    · have hfull : n - data.length = 0 := by omega
      have hsum : ¬ data.length + more.length ≤ n := by omega
      simp [write, hfits, hfull, hsum, List.take_append]
      omega

theorem writeEach_eq (s : Sink) (pieces : List (List UInt8)) :
    s.writeEach pieces = s.write pieces.flatten := by
  induction pieces generalizing s with
  | nil => exact (write_nil s).symm
  | cons piece pieces ih =>
    rw [List.flatten_cons, write_append, writeEach]
    rcases s.write piece with ⟨s', e | ⟨⟩⟩
    · rfl
    · exact ih s'

/-! ## Everything written so far -/

/-- The sink had some room in the beginning, and these bytes were written to it since. -/
structure Took (s : Sink) (room : Option ℕ) (data : List UInt8) : Prop where
  written_eq : s.written.toList = kept room data
  room_eq : s.room = room.map (· - data.length)

theorem Took.write (h : s.Took room data) (more : List UInt8) :
    (s.write more).1.Took room (data ++ more) where
  written_eq := by
    rw [write_fst, kept_append, ← h.room_eq, ← h.written_eq]
    simp
  room_eq := by
    rw [write_fst, h.room_eq, List.length_append]
    rcases room with _ | n <;> simp [Nat.sub_sub]

theorem Took.write_ok_iff (h : s.Took room data) (hmore : more ≠ []) :
    (s.write more).2 = .ok () ↔ ∀ n ∈ room, (data ++ more).length ≤ n := by
  have hpos : 0 < more.length := List.length_pos_iff.mpr hmore
  rw [Sink.write_ok_iff, h.room_eq, List.length_append]
  rcases room with _ | n
  · simp
  · simp
    omega

end ChipEight.Sink
