import Risc16.Encoding
import Risc16.Proofs.Resolution

/-!
# Ranges of fields

Which values do not fit their fields, said without the encoder, and that the encoder refuses exactly
those.

Results:
1. `encodeImmediate_ok`, `encodeTarget_ok`, `encodeDevice_ok`: the values that fit.
2. `Operation.encode_link_error`: once its labels are replaced, an operation fails to encode if and
   only if one of its values is out of range, at the place of that value.
-/

namespace Risc16

open Outcome

/-- A value of an operation does not fit its field, with the place of the value. Labels count as
the addresses that the table gives them.

* `immediate`: an immediate is a signed byte.
* `target`: a jump stays within the instruction memory.
* `device`: the number of a device has four bits.
* `unwired`: strict settings allow only the devices in the table of the direction. -/
inductive OutOfRange (s : Settings) (t : SymbolTable) : Operation → Located RangeFault → Prop
  | immediate {a : Located Register} {value : Located Int} :
      value.value < -128 ∨ 127 < value.value →
      OutOfRange s t (.ldi a value) ⟨.immediate value.value, value.location⟩
  | target {o : Operation} {target : Located Target} {address : Int} :
      o.target? = some target → target.value.link t = .address address →
      address < 0 ∨ s.capacity - 1 < address →
      OutOfRange s t o ⟨.target address s.capacity, target.location⟩
  | device {way : Direction} {a : Located Register} {device : Located Int} :
      device.value < 0 ∨ 15 < device.value →
      OutOfRange s t (.transfer way a device) ⟨.device way device.value, device.location⟩
  | unwired {way : Direction} {a : Located Register} {device : Located Int} :
      s.strictDevices = true → 0 ≤ device.value → device.value ≤ 15 →
      (∀ entry ∈ way.devices, (entry.2 : Int) ≠ device.value) →
      OutOfRange s t (.transfer way a device) ⟨.unwired way device.value, device.location⟩

/-! ## Values that fit -/

theorem Settings.isValid_iff {s : Settings} :
    s.isValid = true ↔ 1 ≤ s.capacity ∧ s.capacity ≤ 256 := by
  rw [isValid, Bool.and_eq_true, decide_eq_true_eq, decide_eq_true_eq]
  rfl

theorem encodeImmediate_ok {value : Located Int} {n : Nat} :
    encodeImmediate value = .ok n ↔
      (-128 ≤ value.value ∧ value.value ≤ 127) ∧ n = (value.value % 256).toNat := by
  unfold encodeImmediate
  by_cases h : immediateMin ≤ value.value ∧ value.value ≤ immediateMax
  · rw [if_pos h, Except.ok.injEq, eq_comm]
    exact (and_iff_right h).symm
  · rw [if_neg h]
    constructor
    · intro he
      cases he
    · rintro ⟨hrange, _⟩
      exact absurd hrange h

theorem encodeTarget_ok {s : Settings} {target : Located Target} {n : Nat} :
    encodeTarget s target = .ok n ↔ target.value = .address n ∧ (n : Int) < s.capacity := by
  obtain ⟨value | name, location⟩ := target
  · simp only [encodeTarget]
    split
    · simp only [Except.ok.injEq, Target.address.injEq]
      omega
    · simp only [reduceCtorEq, Target.address.injEq, false_iff]
      omega
  · simp [encodeTarget]

theorem mem_deviceNumbers {way : Direction} {n : Nat} :
    n ∈ way.deviceNumbers ↔ ∃ entry ∈ way.devices, entry.2 = n := by
  rw [Direction.deviceNumbers, List.mem_eraseDups, List.mem_map]

theorem encodeDevice_ok {s : Settings} {way : Direction} {device : Located Int} {n : Nat}
    (h : encodeDevice s way device = .ok n) : device.value = n ∧ n ≤ 15 := by
  unfold encodeDevice at h
  split at h
  · next hrange =>
    have hmax : device.value ≤ 15 := hrange.2
    split at h
    · cases h
    · cases h
      omega
  · cases h

/-! ## Values that do not -/

theorem encodeImmediate_error {value : Located Int} {c : Located Cause} :
    encodeImmediate value = .error c ↔
      (value.value < -128 ∨ 127 < value.value) ∧
        c = ⟨.range (.immediate value.value), value.location⟩ := by
  unfold encodeImmediate
  by_cases h : immediateMin ≤ value.value ∧ value.value ≤ immediateMax
  · rw [if_pos h]
    have hmin : -128 ≤ value.value := h.1
    have hmax : value.value ≤ 127 := h.2
    simp only [reduceCtorEq, false_iff]
    omega
  · rw [if_neg h, Except.error.injEq, eq_comm]
    have hout : value.value < -128 ∨ 127 < value.value := by
      have : ¬ (-128 ≤ value.value ∧ value.value ≤ 127) := h
      omega
    exact (and_iff_right hout).symm

theorem encodeTarget_error {s : Settings} {address : Int} {l : Location} {c : Located Cause} :
    encodeTarget s ⟨.address address, l⟩ = .error c ↔
      (address < 0 ∨ s.capacity - 1 < address) ∧
        c = ⟨.range (.target address s.capacity), l⟩ := by
  simp only [encodeTarget]
  split
  · simp only [reduceCtorEq, false_iff]
    omega
  · next h =>
    rw [Except.error.injEq, eq_comm]
    have hout : address < 0 ∨ s.capacity - 1 < address := by omega
    exact (and_iff_right hout).symm

theorem encodeDevice_error {s : Settings} {way : Direction} {device : Located Int}
    {c : Located Cause} :
    encodeDevice s way device = .error c ↔
      ((device.value < 0 ∨ 15 < device.value) ∧
        c = ⟨.range (.device way device.value), device.location⟩) ∨
      ((s.strictDevices = true ∧ 0 ≤ device.value ∧ device.value ≤ 15 ∧
          ∀ entry ∈ way.devices, (entry.2 : Int) ≠ device.value) ∧
        c = ⟨.range (.unwired way device.value), device.location⟩) := by
  unfold encodeDevice
  by_cases hrange : 0 ≤ device.value ∧ device.value ≤ deviceMax
  · have hmax : device.value ≤ 15 := hrange.2
    have hout : ¬ (device.value < 0 ∨ 15 < device.value) := by omega
    have hwired : device.value.toNat ∉ way.deviceNumbers ↔
        ∀ entry ∈ way.devices, (entry.2 : Int) ≠ device.value := by
      rw [mem_deviceNumbers, not_exists]
      constructor
      · intro h entry hentry heq
        exact h entry ⟨hentry, by omega⟩
      · rintro h entry ⟨hentry, heq⟩
        exact h entry hentry (by omega)
    rw [if_pos hrange]
    by_cases hstrict : s.strictDevices = true ∧ device.value.toNat ∉ way.deviceNumbers
    · rw [if_pos hstrict, Except.error.injEq, eq_comm]
      simp only [hout, false_and, false_or]
      exact (and_iff_right ⟨hstrict.1, hrange.1, hmax, hwired.1 hstrict.2⟩).symm
    · rw [if_neg hstrict]
      simp only [reduceCtorEq, hout, false_and, false_or, false_iff]
      rintro ⟨⟨hs, _, _, hw⟩, _⟩
      exact hstrict ⟨hs, hwired.2 hw⟩
  · have hout : device.value < 0 ∨ 15 < device.value := by
      have : ¬ (0 ≤ device.value ∧ device.value ≤ 15) := hrange
      omega
    rw [if_neg hrange, Except.error.injEq, eq_comm]
    constructor
    · intro h
      exact .inl ⟨hout, h⟩
    · rintro (⟨_, h⟩ | ⟨⟨_, hmin, hmax, _⟩, _⟩)
      · exact h
      · omega

/-! ## Operations -/

theorem Operation.exists_link {t : SymbolTable} {o : Operation} {target : Located Target}
    (htarget : o.target? = some target) (hdefined : ∀ r, ¬ o.Misses t r) :
    ∃ address, target.value.link t = .address address := by
  obtain ⟨address | name, location⟩ := target
  · exact ⟨address, rfl⟩
  · have hlabel := target?_eq_label.1 htarget
    have hname : name ∈ t.names := not_not.1 fun hnot => hdefined ⟨name, location⟩ ⟨hlabel, hnot⟩
    obtain ⟨symbol, hfind⟩ := SymbolTable.exists_find? hname
    exact ⟨symbol.address, by simp only [Target.link, hfind]⟩

/-- The target of a jump is out of range if it fails to encode. -/
theorem encodeTarget_link_error {s : Settings} {t : SymbolTable} {o : Operation}
    {target : Located Target} {c : Located Cause} (htarget : o.target? = some target)
    (hdefined : ∀ r, ¬ o.Misses t r) :
    encodeTarget s ⟨target.value.link t, target.location⟩ = .error c ↔
      ∃ fault, OutOfRange s t o fault ∧ c = ⟨.range fault.value, fault.location⟩ := by
  obtain ⟨address, haddress⟩ := Operation.exists_link htarget hdefined
  rw [haddress, encodeTarget_error]
  constructor
  · rintro ⟨hout, hc⟩
    exact ⟨_, .target htarget haddress hout, hc⟩
  · rintro ⟨fault, hout, hc⟩
    cases hout with
    | target htarget' haddress' hout =>
      rw [htarget, Option.some.injEq] at htarget'
      subst htarget'
      rw [haddress, Target.address.injEq] at haddress'
      subst haddress'
      exact ⟨hout, hc⟩
    | _ => cases htarget

/-- The encoder refuses an operation if and only if one of its values is out of range. -/
theorem Operation.encode_link_error {s : Settings} {t : SymbolTable} {o : Operation}
    {c : Located Cause} (hdefined : ∀ r, ¬ o.Misses t r) :
    (o.link t).encode s = .error c ↔
      ∃ fault, OutOfRange s t o fault ∧ c = ⟨.range fault.value, fault.location⟩ := by
  cases o with
  | nop | alu op a b | inv a =>
    -- Registers always fit.
    simp only [link, encode, reduceCtorEq, false_iff]
    rintro ⟨fault, hout, _⟩
    cases hout with
    | target htarget _ _ => cases htarget
  | ldi a value =>
    simp only [link, encode, map_error, encodeImmediate_error]
    constructor
    · rintro ⟨hout, hc⟩
      exact ⟨_, .immediate hout, hc⟩
    · rintro ⟨fault, hout, hc⟩
      cases hout with
      | immediate hout => exact ⟨hout, hc⟩
      | target htarget _ _ => cases htarget
  | transfer way a device =>
    simp only [link, encode, map_error, encodeDevice_error]
    constructor
    · rintro (⟨hout, hc⟩ | ⟨⟨hstrict, hmin, hmax, hwired⟩, hc⟩)
      · exact ⟨_, .device hout, hc⟩
      · exact ⟨_, .unwired hstrict hmin hmax hwired, hc⟩
    · rintro ⟨fault, hout, hc⟩
      cases hout with
      | device hout => exact .inl ⟨hout, hc⟩
      | unwired hstrict hmin hmax hwired => exact .inr ⟨⟨hstrict, hmin, hmax, hwired⟩, hc⟩
      | target htarget _ _ => cases htarget
  | branch condition a target =>
    simp only [link, encode, map_error]
    exact encodeTarget_link_error rfl hdefined
  | jump target =>
    simp only [link, encode, map_error]
    exact encodeTarget_link_error rfl hdefined

end Risc16
