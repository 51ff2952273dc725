import ChipEight.Proofs.Machine.Frame

/-!
# Calls and returns

The calls and returns that succeed in a run make up its history, a list of `Linkage`s. Which calls
of a history are still open is said by counting alone: a return that is one too many for the calls
in between answers a call before them, so a call is matched if in some beginning of what follows
the returns outnumber the calls (`Answers`). `unmatched` lists the calls that are not.

A call adds itself to the list and a return takes the last one off it (`unmatched_append_call`,
`unmatched_append_ret`), which is what happens to the call stack of the machine. So the stack
holds the return addresses of the unmatched calls (`toList_stack_run`), and `calls_nest` says what
follows for the next step of a run.
-/

namespace ChipEight

/-! ## Histories -/

/-- A call or a return that succeeded. -/
inductive Linkage where
  /-- The instruction at this address called a subroutine. -/
  | call (caller : UInt16)
  /-- A subroutine returned. -/
  | ret
  deriving DecidableEq

namespace Linkage

def isCall : Linkage → Bool
  | call _ => true
  | ret => false

/-- In some beginning of the history the returns outnumber the calls. -/
def Answers (bs : List Linkage) : Prop :=
  ∃ p ∈ bs.inits, p.countP isCall < p.count .ret

instance (bs : List Linkage) : Decidable (Answers bs) :=
  inferInstanceAs (Decidable (∃ p ∈ bs.inits, _))

/-- The addresses of the calls that no return has answered, the earliest first. -/
def unmatched : List Linkage → List UInt16
  | [] => []
  | .call caller :: bs => if Answers bs then unmatched bs else caller :: unmatched bs
  | .ret :: bs => unmatched bs

/-- How many returns of the history answer calls before it. -/
def surplus : List Linkage → ℕ
  | [] => 0
  | .call _ :: bs => surplus bs - 1
  | .ret :: bs => surplus bs + 1

/-- The surplus is the most by which the returns outnumber the calls in a beginning of the
history. -/
theorem lt_surplus_iff (bs : List Linkage) (k : ℕ) :
    k < surplus bs ↔ ∃ p ∈ bs.inits, p.countP isCall + k < p.count .ret := by
  induction bs generalizing k with
  | nil => simp [surplus]
  | cons b bs ih =>
    cases b with
    | call caller =>
      have hless : k < surplus bs - 1 ↔ k + 1 < surplus bs := by omega
      have hcount (p : List Linkage) :
          (call caller :: p).countP isCall + k = p.countP isCall + (k + 1) := by
        rw [List.countP_cons_of_pos rfl, Nat.add_assoc, Nat.add_comm 1 k]
      rw [surplus, hless, ih]
      simp [List.inits, hcount]
    | ret =>
      cases k with
      | zero =>
        -- The one return that comes first is enough.
        refine iff_of_true (Nat.succ_pos _) ⟨[.ret], ?_, by decide⟩
        simp [List.inits, List.mem_inits]
      | succ k =>
        rw [surplus, Nat.succ_lt_succ_iff, ih]
        simp [List.inits, isCall, ← Nat.add_assoc]

theorem answers_iff {bs : List Linkage} : Answers bs ↔ 0 < surplus bs := (lt_surplus_iff bs 0).symm

theorem unmatched_call (caller : UInt16) (bs : List Linkage) :
    unmatched (.call caller :: bs) =
      if 0 < surplus bs then unmatched bs else caller :: unmatched bs := by
  rw [unmatched]
  exact if_congr answers_iff rfl rfl

theorem surplus_append_call (caller : UInt16) (bs : List Linkage) :
    surplus (bs ++ [.call caller]) = surplus bs := by
  induction bs with
  | nil => rfl
  | cons b bs ih => cases b <;> rw [List.cons_append, surplus, surplus, ih]

/-- A call is open until a return answers it. -/
theorem unmatched_append_call (caller : UInt16) (bs : List Linkage) :
    unmatched (bs ++ [.call caller]) = unmatched bs ++ [caller] := by
  induction bs with
  | nil => rfl
  | cons b bs ih =>
    cases b with
    | call a =>
      rw [List.cons_append, unmatched_call, unmatched_call, surplus_append_call, ih]
      split_ifs <;> rfl
    | ret => exact ih

/-- A return that no call of the history is open for answers a call before it. -/
theorem surplus_append_ret (bs : List Linkage) :
    surplus (bs ++ [.ret]) = surplus bs + if unmatched bs = [] then 1 else 0 := by
  induction bs with
  | nil => rfl
  | cons b bs ih =>
    cases b with
    | call a =>
      rw [List.cons_append, surplus, surplus, ih, unmatched_call]
      rcases Nat.eq_zero_or_pos (surplus bs) with h0 | hpos
      · rw [h0, if_neg (lt_irrefl 0), if_neg (List.cons_ne_nil a _)]
        split_ifs <;> rfl
      · rw [if_pos hpos]
        omega
    | ret =>
      rw [List.cons_append, surplus, surplus, ih, unmatched]
      omega

/-- A return answers the latest call that is open. -/
theorem unmatched_append_ret (bs : List Linkage) :
    unmatched (bs ++ [.ret]) = (unmatched bs).dropLast := by
  induction bs with
  | nil => rfl
  | cons b bs ih =>
    cases b with
    | call a =>
      rw [List.cons_append, unmatched_call, unmatched_call, surplus_append_ret, ih]
      rcases Nat.eq_zero_or_pos (surplus bs) with h0 | hpos
      · rw [h0, if_neg (lt_irrefl 0)]
        by_cases hnil : unmatched bs = []
        · simp [hnil]
        · rw [if_neg hnil, if_neg (by decide), List.dropLast_cons_of_ne_nil hnil]
      · rw [if_pos (by omega), if_pos hpos]
    | ret => exact ih

end Linkage

/-! ## The call stack as a list -/

namespace CallStack

theorem length_toList (c : CallStack) : c.toList.length = c.depth := by
  rw [toList, List.length_take, Vector.length_toList]
  exact Nat.min_eq_left c.depth_le

theorem toList_eq_nil_iff {c : CallStack} : c.toList = [] ↔ c.depth = 0 := by
  rw [← List.length_eq_zero_iff, length_toList]

/-- The latest return address is the last of the list. -/
theorem getLast?_toList {c : CallStack} (hd : c.depth ≠ 0) : c.toList.getLast? = some c.top := by
  have hlt : c.depth - 1 < 16 := by have := c.depth_le; omega
  have htop : c.top = c.slots[c.depth - 1] := dif_neg hd
  rw [List.getLast?_eq_getElem?, length_toList, htop, toList, List.getElem?_take_of_lt (by omega),
    Vector.getElem?_toList, Vector.getElem?_eq_getElem hlt]

end CallStack

namespace Machine

open Linkage (unmatched)

section

variable {m m' : Machine} {pad : Keypad} {i : Instruction} {f : Fault}

/-! ## Only calls and returns use the call stack -/

theorem stack_perform (hret : i ≠ .ret) (hcall : ∀ nnn, i ≠ .call nnn) :
    (m.perform pad i).1.stack = m.stack := by
  refine same_perform (f := .stack) ?_
  cases i with
  | ret => exact absurd rfl hret
  | call nnn => exact absurd rfl (hcall nnn)
  | _ => simp [Instruction.writes]

theorem decode_ret_iff {w : Word} : Instruction.decode w = some .ret ↔ w = 0x00EE := by
  constructor
  · intro h
    exact eq_of_fits_ret (Instruction.describes_decode h).1
  · rintro rfl
    rfl

theorem decode_call_iff {w : Word} :
    (∃ nnn, Instruction.decode w = some (.call nnn)) ↔ w.fits "2nnn" = true := by
  constructor
  · rintro ⟨nnn, h⟩
    exact (Instruction.describes_decode h).1
  · intro h
    exact ⟨w.address, Instruction.decode_of_describes ⟨h, rfl⟩ (by simp [Instruction.form])⟩

/-! ## What a step adds to the history -/

/-- The call or the return that a step carries out, if it does. -/
def linkage (m : Machine) (pad : Keypad) : Option Linkage :=
  match (m.step pad).2 with
  | .error _ => none
  | .ok _ =>
    if m.word = 0x00EE then some .ret
    else if m.word.fits "2nnn" then some (.call m.pc)
    else none

/-- A step returns, calls, or leaves the call stack alone. -/
theorem linkage_cases (m : Machine) (pad : Keypad) :
    (m.linkage pad = some .ret ∧ m.stack.depth ≠ 0 ∧ (m.step pad).1.pc = m.stack.top ∧
        (m.step pad).1.stack = m.stack.popped) ∨
      (m.linkage pad = some (.call m.pc) ∧ m.stack.depth < 16 ∧
        (m.step pad).1.stack = m.stack.pushed (addWrapped m.pc 2)) ∨
      (m.linkage pad = none ∧ (m.step pad).1.stack = m.stack) := by
  rcases step_cases m pad with ⟨f, -, hs⟩ | ⟨w, i, f, -, -, hs⟩ | ⟨w, i, hf, hr, hs⟩
  · exact Or.inr (Or.inr ⟨by rw [linkage, hs], by rw [hs]⟩)
  · exact Or.inr (Or.inr ⟨by rw [linkage, hs], by rw [hs]⟩)
  · obtain ⟨-, rfl, hi⟩ := fetch_eq_ok_iff.mp hf
    rw [linkage, hs]
    by_cases hret : m.word = 0x00EE
    · obtain rfl : i = .ret := Option.some.inj (hi.symm.trans (decode_ret_iff.mpr hret))
      have hd : m.stack.depth ≠ 0 := fun h0 => by
        rw [refusal, if_pos h0] at hr
        cases hr
      exact Or.inl ⟨if_pos hret, hd, rfl, rfl⟩
    · by_cases hcall : m.word.fits "2nnn" = true
      · obtain ⟨nnn, hnnn⟩ := decode_call_iff.mpr hcall
        obtain rfl : i = .call nnn := Option.some.inj (hi.symm.trans hnnn)
        have hd : m.stack.depth ≠ 16 := fun h16 => by
          rw [refusal, if_pos h16] at hr
          cases hr
        have hle := m.stack.depth_le
        refine Or.inr (Or.inl ⟨?_, by omega, rfl⟩)
        dsimp only
        rw [if_neg hret, if_pos hcall]
      · refine Or.inr (Or.inr ⟨?_, ?_⟩)
        · dsimp only
          rw [if_neg hret, if_neg hcall]
        · refine stack_perform ?_ ?_
          · rintro rfl
            exact hret (decode_ret_iff.mp hi)
          · rintro nnn rfl
            exact hcall (decode_call_iff.mp ⟨nnn, hi⟩)

/-! ## Runs -/

/-- A step for each keypad of a list. A step that fails leaves the machine as it is. -/
def run (m : Machine) (pads : List Keypad) : Machine := pads.foldl (fun m pad => (m.step pad).1) m

/-- The calls and returns that succeed in a run. -/
def linkages (m : Machine) : List Keypad → List Linkage
  | [] => []
  | pad :: pads => (m.linkage pad).toList ++ (m.step pad).1.linkages pads

theorem run_concat (m : Machine) (pads : List Keypad) (pad : Keypad) :
    m.run (pads ++ [pad]) = ((m.run pads).step pad).1 := List.foldl_concat ..

theorem linkages_concat (m : Machine) (pads : List Keypad) (pad : Keypad) :
    m.linkages (pads ++ [pad]) = m.linkages pads ++ ((m.run pads).linkage pad).toList := by
  induction pads generalizing m with
  | nil => exact List.append_nil _
  | cons p pads ih =>
    rw [List.cons_append, linkages, linkages, ih, List.append_assoc]
    rfl

/-- The call stack holds the return addresses of the unmatched calls, the earliest first. -/
theorem toList_stack_run (hempty : m.stack.depth = 0) (pads : List Keypad) :
    (m.run pads).stack.toList = (unmatched (m.linkages pads)).map (addWrapped · 2) := by
  induction pads using List.reverseRecOn with
  | nil => exact CallStack.toList_eq_nil_iff.mpr hempty
  | append_singleton pads pad ih =>
    rw [run_concat, linkages_concat]
    rcases linkage_cases (m.run pads) pad with
      ⟨hb, -, -, hstack⟩ | ⟨hb, hd, hstack⟩ | ⟨hb, hstack⟩
    · rw [hb, hstack, CallStack.toList_popped, ih, Option.toList_some,
        Linkage.unmatched_append_ret, List.map_dropLast]
    · rw [hb, hstack, CallStack.toList_pushed hd, ih, Option.toList_some,
        Linkage.unmatched_append_call, List.map_append, List.map_singleton]
    · rw [hb, hstack, ih, Option.toList_none, List.append_nil]

/-! ## The next step -/

theorem error_iff_of_fetch {w : Word} (hf : m.fetch = .ok (w, i)) :
    (m.step pad).2 = .error f ↔ m.refusal i = some f := by
  unfold step
  rcases hr : m.refusal i with _ | f' <;> simp [hf, hr]

theorem error_ret_iff (hpc : m.pc ≤ 0xFFE) (hw : m.word = 0x00EE) :
    (m.step pad).2 = .error f ↔ m.stack.depth = 0 ∧ f = .stackUnderflow := by
  rw [error_iff_of_fetch (fetch_of_decode hpc (decode_ret_iff.mpr hw)), refusal]
  split_ifs with hd <;> simp [hd, eq_comm]

theorem error_call_iff (hpc : m.pc ≤ 0xFFE) (hw : m.word.fits "2nnn" = true) :
    (m.step pad).2 = .error f ↔ m.stack.depth = 16 ∧ f = .stackOverflow := by
  obtain ⟨nnn, hi⟩ := decode_call_iff.mpr hw
  rw [error_iff_of_fetch (fetch_of_decode hpc hi), refusal]
  split_ifs with hd <;> simp [hd, eq_comm]

/-- **Calls and returns nest like brackets.** After any run of a program that was just loaded, the
depth of the call stack is the number of calls that no return has answered, and it holds their
return addresses. In the next step a return that succeeds goes on behind the latest of these calls,
counted round the end of memory; a return fails exactly if there is none, and a call exactly if
there are sixteen. A step that neither calls nor returns leaves the call stack as it is. -/
theorem calls_nest {settings : Settings} {program : List UInt8} {drawn : ChaCha.Key}
    (hload : load program settings drawn = .ok m) (pads : List Keypad) (pad : Keypad) :
    let r := m.run pads
    let calls := unmatched (m.linkages pads)
    r.stack.depth = calls.length ∧
      r.stack.toList = calls.map (addWrapped · 2) ∧
      (r.linkage pad = some .ret → ∃ caller, calls.getLast? = some caller ∧
        (r.step pad).1.pc = addWrapped caller 2) ∧
      (r.pc ≤ 0xFFE → r.word = 0x00EE → ∀ f,
        ((r.step pad).2 = .error f ↔ calls = [] ∧ f = .stackUnderflow)) ∧
      (r.pc ≤ 0xFFE → r.word.fits "2nnn" = true → ∀ f,
        ((r.step pad).2 = .error f ↔ calls.length = 16 ∧ f = .stackOverflow)) ∧
      (r.linkage pad = none → (r.step pad).1.stack = r.stack) := by
  intro r calls
  have hempty : m.stack.depth = 0 := by
    unfold load at hload
    split_ifs at hload
    cases hload
    rfl
  have hlist : r.stack.toList = calls.map (addWrapped · 2) := toList_stack_run hempty pads
  have hdepth : r.stack.depth = calls.length := by
    rw [← CallStack.length_toList, hlist, List.length_map]
  refine ⟨hdepth, hlist, fun hret => ?_, fun hpc hw f => ?_, fun hpc hw f => ?_, fun hnone => ?_⟩
  · rcases linkage_cases r pad with ⟨-, hd, hpc, -⟩ | ⟨hl, -⟩ | ⟨hl, -⟩
    · have hlast := CallStack.getLast?_toList hd
      rw [hlist, List.getLast?_map] at hlast
      obtain ⟨caller, hcaller, htop⟩ := Option.map_eq_some_iff.mp hlast
      exact ⟨caller, hcaller, hpc.trans htop.symm⟩
    · rw [hret] at hl
      cases hl
    · rw [hret] at hl
      cases hl
  · rw [error_ret_iff hpc hw, hdepth, List.length_eq_zero_iff]
  · rw [error_call_iff hpc hw, hdepth]
  · rcases linkage_cases r pad with ⟨hl, -⟩ | ⟨hl, -⟩ | ⟨-, hstack⟩
    · rw [hnone] at hl
      cases hl
    · rw [hnone] at hl
      cases hl
    · exact hstack

/-- A program that writes a call to the last word of memory and executes it inside a subroutine:
the return from it goes on at the start of memory. -/
theorem calls_nest_end_of_memory :
    let program : List UInt8 :=
      [0x60, 0x22, 0x61, 0x0C, 0xAF, 0xFE, 0xF1, 0x55, 0x22, 0x0A, 0x1F, 0xFE, 0x00, 0xEE]
    let settings : Settings := { seed := some 7 }
    let new := fresh settings default
    let m : Machine := { new with memory := new.memory.pokes programStart.toNat program }
    let pads : List Keypad := List.replicate 7 {}
    load program settings default = .ok m ∧ unmatched (m.linkages pads) = [0x208, 0xFFE] ∧
      (m.run pads).stack.depth = 2 ∧ ((m.run pads).step {}).1.pc = 0 := by
  intro program settings new m pads
  have hload : load program settings default = .ok m := if_pos (by decide)
  obtain ⟨hcalls, hret⟩ : unmatched (m.linkages pads) = [0x208, 0xFFE] ∧
      (m.run pads).linkage {} = some .ret := by decide +kernel
  obtain ⟨hdepth, -, hback, -⟩ := calls_nest hload pads {}
  obtain ⟨caller, hlast, hpc⟩ := hback hret
  rw [hcalls] at hdepth hlast
  cases hlast
  exact ⟨hload, hcalls, hdepth, hpc⟩

end

end Machine

end ChipEight
