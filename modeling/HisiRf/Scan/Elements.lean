import Mathlib

/-! The information elements of a scan result and of an association response.

Slices are read by index, as the source reads them: `none` is an index outside
the slice. The reference decoder reads the same bytes from the front. A slice is
shorter than `2 ^ 31`, so that no offset wraps and no sum saturates.
-/

namespace HisiRf.Elements

open List Option

/-- The bytes from `start` up to `stop`, if they lie within the slice. -/
def slice (bytes : List UInt8) (start stop : Nat) : Option (List UInt8) :=
  if start ≤ stop ∧ stop ≤ bytes.length then some ((bytes.drop start).take (stop - start)) else none

def u16 (low high : UInt8) : Nat := low.toNat + 256 * high.toNat

def u16At (bytes : List UInt8) (index : Nat) : Option Nat := do
  let low ← bytes[index]?
  let high ← bytes[index + 1]?
  pure (u16 low high)

def chunks : List UInt8 → List (List UInt8)
  | a :: b :: c :: d :: rest => [a, b, c, d] :: chunks rest
  | _ => []

def rsnOui : List UInt8 := [0x00, 0x0f, 0xac]
def authModeWpa2Psk : Int32 := 2
def authModeWpa3Sae : Int32 := 7
def authModeWpa2Wpa3Transition : Int32 := 8

def authMode (psk sae : Bool) : Int32 :=
  if psk && sae then authModeWpa2Wpa3Transition
  else if psk then authModeWpa2Psk
  else if sae then authModeWpa3Sae
  else 0

def rsnSecurity (body : List UInt8) : Option (Int32 × Int32) :=
  if body.length < 8 then some (0, 0) else do
    if (← u16At body 0) ≠ 1 then some (0, 0) else
    let pairwiseEnd := 8 + (← u16At body 6) * 4
    if body.length < pairwiseEnd + 2 then some (0, 0) else
    let ccmp := (chunks (← slice body 8 pairwiseEnd)).any fun suite =>
      suite.take 3 = rsnOui ∧ suite[3]? = some 4
    let akmEnd := pairwiseEnd + 2 + (← u16At body pairwiseEnd) * 4
    if body.length < akmEnd then some (0, 0) else
    let (psk, sae) := (chunks (← slice body (pairwiseEnd + 2) akmEnd)).foldl (fun seen suite =>
      if suite.take 3 = rsnOui then (seen.1 || suite[3]? = some 2, seen.2 || suite[3]? = some 8)
      else seen) (false, false)
    some (authMode psk sae, if ccmp then 1 else 0)

/-- A count and as many suites of four bytes. -/
def readSuites : List UInt8 → Option (List (List UInt8) × List UInt8)
  | low :: high :: rest =>
    if rest.length < u16 low high * 4 then none
    else some (chunks (rest.take (u16 low high * 4)), rest.drop (u16 low high * 4))
  | _ => none

/-- Pairwise suites and AKM suites of a body of version 1, behind its group suite. -/
def readRsn (body : List UInt8) : Option (List (List UInt8) × List (List UInt8)) :=
  if u16At body 0 ≠ some 1 then none else do
    let (pairwise, rest) ← readSuites (body.drop 6)
    let (akm, _) ← readSuites rest
    some (pairwise, akm)

def suite (kind : UInt8) : List UInt8 := [0x00, 0x0f, 0xac, kind]

def readSecurity (body : List UInt8) : Int32 × Int32 :=
  match readRsn body with
  | none => (0, 0)
  | some (pairwise, akm) =>
    (if suite 2 ∈ akm then if suite 8 ∈ akm then 8 else 2 else if suite 8 ∈ akm then 7 else 0,
      if suite 4 ∈ pairwise then 1 else 0)

variable {R : Type} {ies body : List UInt8} {offset : Nat}

theorem drop_two {id len : UInt8} (first : ies[offset]? = some id)
    (second : ies[offset + 1]? = some len) : ies.drop offset = id :: len :: ies.drop (offset + 2) := by
  rw [drop_eq_getElem?_toList_append, first, drop_eq_getElem?_toList_append, second]
  rfl

theorem slice_eq {start stop : Nat} (order : start ≤ stop) (within : stop ≤ ies.length) :
    slice ies start stop = some ((ies.drop start).take (stop - start)) := if_pos ⟨order, within⟩

theorem readSuites_short (few : body.length < offset + 2) : readSuites (body.drop offset) = none := by
  have length : (body.drop offset).length < 2 := by
    rw [length_drop]
    omega
  match body.drop offset, length with
  | [], _ | [_], _ => rfl

theorem readSuites_drop (offset : Nat) (two : offset + 2 ≤ body.length) : ∃ n, u16At body offset = some n ∧
    readSuites (body.drop offset) = if body.length < offset + 2 + n * 4 then none else
      some (chunks ((body.drop (offset + 2)).take (n * 4)), body.drop (offset + 2 + n * 4)) := by
  have first := getElem?_eq_getElem (l := body) (i := offset) (by omega)
  have second := getElem?_eq_getElem (l := body) (i := offset + 1) (by omega)
  refine ⟨u16 body[offset] body[offset + 1], by simp [u16At, first, second], ?_⟩
  rw [drop_two first second, readSuites, length_drop, drop_drop]
  congr 1
  apply propext
  omega

theorem suite_eq (kind a b c d : UInt8) : (suite kind = [a, b, c, d]) =
    ([a, b, c, d].take 3 = rsnOui ∧ [a, b, c, d][3]? = some kind) := by
  simp [suite, rsnOui, and_assoc, eq_comm]

theorem any_suite (kind : UInt8) (bytes : List UInt8) : (chunks bytes).any (fun suite =>
    suite.take 3 = rsnOui ∧ suite[3]? = some kind) = decide (suite kind ∈ chunks bytes) := by
  fun_induction chunks bytes with
  | case1 a b c d rest ih => simp only [any_cons, ih, mem_cons, suite_eq, Bool.decide_or]
  | case2 => rfl

theorem foldl_suites (bytes : List UInt8) (seen : Bool × Bool) :
    (chunks bytes).foldl (fun seen suite =>
      if suite.take 3 = rsnOui then (seen.1 || suite[3]? = some 2, seen.2 || suite[3]? = some 8)
      else seen) seen =
    (seen.1 || decide (suite 2 ∈ chunks bytes), seen.2 || decide (suite 8 ∈ chunks bytes)) := by
  fun_induction chunks bytes generalizing seen with
  | case1 a b c d rest ih =>
    simp only [foldl_cons, ih, mem_cons, suite_eq, Bool.decide_or]
    split
    next oui => simp only [oui, true_and, Bool.or_assoc]
    next oui => simp only [oui, false_and, decide_false, Bool.false_or]
  | case2 => simp

theorem authMode_eq (psk sae : Prop) [Decidable psk] [Decidable sae] : authMode psk sae =
    if psk then if sae then 8 else 2 else if sae then 7 else 0 := by
  by_cases p : psk <;> by_cases s : sae <;> simp only [authMode, p, s] <;> rfl

theorem rsnSecurity_eq (body : List UInt8) : rsnSecurity body = some (readSecurity body) := by
  unfold rsnSecurity readSecurity readRsn
  split
  next short => simp [readSuites_short short]
  next =>
    obtain ⟨version, same, -⟩ := readSuites_drop 0 (show 2 ≤ body.length by omega)
    obtain ⟨n, pairs, pairwise⟩ := readSuites_drop 6 (show 8 ≤ body.length by omega)
    simp only [same, pairs, pairwise, bind_eq_bind, bind_some, ne_eq, some_inj]
    split
    next => rfl
    next =>
      split
      next short =>
        rcases Nat.lt_or_ge body.length (8 + n * 4) with less | enough
        · rw [if_pos less]
          rfl
        · rw [if_neg (Nat.not_lt.mpr enough)]
          simp only [bind_some, readSuites_short short, bind_none]
      next fits =>
        obtain ⟨m, suites, akm⟩ := readSuites_drop (8 + n * 4) (Nat.le_of_not_lt fits)
        rw [slice_eq (by omega) (by omega), suites, if_neg (by omega)]
        simp only [akm, bind_some]
        split
        next => rfl
        next =>
          rw [slice_eq (by omega) (by omega)]
          simp only [bind_some, any_suite, foldl_suites, Bool.false_or, decide_eq_true_eq,
            Nat.add_sub_cancel_left, authMode_eq]

/-- Suites as an access point lists them. -/
structure Suites where
  list : List (List UInt8)
  four : ∀ s ∈ list, s.length = 4
  few : list.length < 65536

def Suites.bytes (suites : Suites) (rest : List UInt8) : List UInt8 :=
  suites.list.length.toUInt8 :: (suites.list.length / 256).toUInt8 :: (suites.list.flatten ++ rest)

theorem readSuites_bytes (suites : Suites) (rest : List UInt8) :
    readSuites (suites.bytes rest) = some (suites.list, rest) := by
  obtain ⟨list, four, few⟩ := suites
  have read : list.flatten.length = list.length * 4 ∧ chunks list.flatten = list := by
    clear few
    induction list with
    | nil => exact ⟨rfl, rfl⟩
    | cons s list ih =>
      rw [forall_mem_cons] at four
      obtain ⟨length, same⟩ := ih four.2
      match s, four.1 with
      | [a, b, c, d], _ =>
        simp [chunks, length, same]
        omega
  have count : u16 list.length.toUInt8 (list.length / 256).toUInt8 = list.length := by
    simp [u16]
    omega
  rw [Suites.bytes, readSuites, count, ← read.1]
  simp [read.2]

/-- The station reads what is offered, whatever the group suite and the capabilities. -/
theorem offered_security_read (a b c d : UInt8) (pairwise akm : Suites) (rest : List UInt8) :
    rsnSecurity (1 :: 0 :: a :: b :: c :: d :: pairwise.bytes (akm.bytes rest)) = some
      (if suite 2 ∈ akm.list then if suite 8 ∈ akm.list then 8 else 2
        else if suite 8 ∈ akm.list then 7 else 0, if suite 4 ∈ pairwise.list then 1 else 0) := by
  have version (rest) : u16At (1 :: 0 :: rest) 0 = some 1 := rfl
  rw [rsnSecurity_eq, readSecurity]
  simp [readRsn, version, readSuites_bytes]

/-- One pairwise suite and both AKM suites, followed by the capabilities. -/
theorem transition_offer_read : rsnSecurity [1, 0, 0, 15, 172, 4, 1, 0, 0, 15, 172, 4, 2, 0,
    0, 15, 172, 2, 0, 15, 172, 8, 0, 0] = some (8, 1) := by
  have read := offered_security_read 0 15 172 4 ⟨[suite 4], by decide, by decide⟩
    ⟨[suite 2, suite 8], by decide, by decide⟩ [0, 0]
  simpa [Suites.bytes, suite] using read

end HisiRf.Elements
