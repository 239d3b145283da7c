/-
**Poison costs no number.**

A take cursor is used by any number of callers, one at a time since a mutex guards it.  A use is a
claim, or a panic of whoever holds the mutex, and the two may follow each other in any order.  The
next claim finds the mutex poisoned, says so, clears the poison and goes on to hand out its number
all the same, so that the numbers come out as if nobody had panicked: none is skipped, none is
handed out twice, and once all are handed out there is none for anybody.  However many panics come
between two claims, the later claim reports them once, and the claim after it reports nothing.

The counter stops at the limit and not one beyond it.  So it needs no wider word than the limit
does, even for the largest limit that a word can hold.

Main definitions:

* `TakeCursor.Use` — a claim, or a panic of a holder of the mutex;
* `TakeCursor.after`, `TakeCursor.answers` — the cursor after a sequence of uses, and what each
  claim among them has given and logged;
* `TakeCursor.Unheeded` — somebody has panicked since the last claim;
* `TakeCursor.wordAfter` — the counter in words of 64 bits;
* `TakeCursor.GapFree` — what there is to say about a sequence of uses.

Main results:

* `TakeCursor.shows_after` — **what a cursor shows is the number of claims and whether somebody has
  panicked since the last one**;
* `TakeCursor.indices_answers`, `TakeCursor.handedOut` — **the numbers are handed out in order**;
* `TakeCursor.toNat_wordAfter` — words do not wrap around;
* `TakeCursor.gapFree` — all of it, for every sequence of uses.
-/

import Mathlib.Data.List.Induction
import OrderedDispatch.TakeCursor

set_option relaxedAutoImplicit false
set_option autoImplicit false

namespace OrderedDispatch.TakeCursor

variable {κ : Type}

/-! ### Uses of a cursor -/

/-- What can happen to a cursor: a caller claims a number, or somebody panics while holding the
mutex. -/
inductive Use (κ : Type) where
  | claim (caller : κ)
  | poison (holder : κ)
  deriving DecidableEq

/-- Who claims, if the use is a claim. -/
def Use.claimer? : Use κ → Option κ
  | claim caller => some caller
  | poison _ => none

/-- Who claims in a sequence of uses, in order. -/
def claimers (us : List (Use κ)) : List κ := us.filterMap Use.claimer?

/-- Somebody has panicked since the last claim, or since the start if nobody has claimed. -/
def Unheeded (us : List (Use κ)) : Prop :=
  ∃ earlier holder later, us = earlier ++ .poison holder :: later ∧ claimers later = []

/-- What a claim comes to for its caller: what it gives, and what it logs. -/
structure Answer (κ : Type) where
  caller : κ
  given : Claim
  events : List Event
  deriving DecidableEq

/-- The cursor before its first use. -/
def fresh (limit : Nat) : TakeCursor := { limit }

/-- The cursor after one use. -/
def used (c : TakeCursor) : Use κ → TakeCursor
  | .claim _ => c.claim.2
  | .poison _ => c.poison

/-- The answer to a use, if it is a claim. -/
def answer? (c : TakeCursor) : Use κ → Option (Answer κ)
  | .claim caller => some ⟨caller, c.claim.1, c.claimEvents⟩
  | .poison _ => none

/-- The cursor after a sequence of uses. -/
def after (c : TakeCursor) (us : List (Use κ)) : TakeCursor := us.foldl used c

/-- The answers to the claims among a sequence of uses, in order. -/
def answers : TakeCursor → List (Use κ) → List (Answer κ)
  | _, [] => []
  | c, u :: rest => (c.answer? u).toList ++ answers (c.used u) rest

@[simp] theorem claimers_append (us vs : List (Use κ)) :
    claimers (us ++ vs) = claimers us ++ claimers vs := List.filterMap_append

@[simp] theorem claimers_claim (caller : κ) : claimers [Use.claim caller] = [caller] := rfl

@[simp] theorem claimers_poison (holder : κ) : claimers [Use.poison holder] = [] := rfl

@[simp] theorem after_append (c : TakeCursor) (us vs : List (Use κ)) :
    c.after (us ++ vs) = (c.after us).after vs := List.foldl_append

theorem answers_append (c : TakeCursor) (us vs : List (Use κ)) :
    c.answers (us ++ vs) = c.answers us ++ (c.after us).answers vs := by
  induction us generalizing c with
  | nil => rfl
  | cons u rest ih => simp [answers, after, ih]

theorem answers_concat (c : TakeCursor) (us : List (Use κ)) (u : Use κ) :
    c.answers (us ++ [u]) = c.answers us ++ ((c.after us).answer? u).toList := by
  rw [answers_append]
  simp [answers]

/-! ### What a cursor shows -/

theorem unheeded_poison (us : List (Use κ)) (holder : κ) : Unheeded (us ++ [.poison holder]) :=
  ⟨us, holder, [], rfl, rfl⟩

/-- Right after a claim no panic is unheeded. -/
theorem not_unheeded_claim (us : List (Use κ)) (caller : κ) :
    ¬ Unheeded (us ++ [.claim caller]) := by
  rintro ⟨earlier, holder, later, hsplit, hnone⟩
  rcases List.eq_nil_or_concat later with rfl | ⟨init, u, rfl⟩
  · -- the last use would be the panic
    cases (List.append_inj' hsplit rfl).2
  · -- the last use is one of those after the panic, none of which is a claim
    rw [List.concat_eq_append, ← List.cons_append, ← List.append_assoc] at hsplit
    obtain ⟨-, hlast⟩ := List.append_inj' hsplit rfl
    obtain rfl := List.singleton_inj.1 hlast
    rw [List.concat_eq_append, claimers_append] at hnone
    cases (List.append_eq_nil_iff.1 hnone).2

/-- A cursor shows what has happened to it: how many claims there have been, as far as the limit,
and whether somebody has panicked since the last one. -/
structure Shows (limit : Nat) (us : List (Use κ)) (c : TakeCursor) : Prop where
  next : c.next = min (claimers us).length limit
  limit : c.limit = limit
  poisoned : c.poisoned = true ↔ Unheeded us

theorem shows_fresh (limit : Nat) : Shows (κ := κ) limit [] (fresh limit) where
  next := (Nat.zero_min limit).symm
  limit := rfl
  poisoned := by
    refine ⟨nofun, ?_⟩
    rintro ⟨earlier, holder, later, hsplit, -⟩
    simp at hsplit

namespace Shows

variable {limit : Nat} {us : List (Use κ)} {c : TakeCursor}

/-- **One use** keeps what the cursor shows up to date. -/
theorem used (h : Shows limit us c) (u : Use κ) : Shows limit (us ++ [u]) (c.used u) := by
  cases u with
  | claim caller =>
      refine ⟨?_, h.limit, iff_of_false Bool.false_ne_true (not_unheeded_claim us caller)⟩
      have hle : c.next ≤ c.limit := by
        rw [h.next, h.limit]
        exact Nat.min_le_right _ _
      have hnext := c.claimed_next hle
      rw [h.limit, h.next] at hnext
      rw [claimers_append, claimers_claim, List.length_append, List.length_singleton]
      change c.claimed.next = _
      omega
  | poison holder =>
      refine ⟨?_, h.limit, iff_of_true rfl (unheeded_poison us holder)⟩
      rw [claimers_append, claimers_poison, List.append_nil]
      exact h.next

/-- The number that a claim gives is the number of claims before it, as long as that is below the
limit. -/
theorem index (h : Shows limit us c) :
    c.claim.1.index = if (claimers us).length < limit then some (claimers us).length else none := by
  simp only [claim, offer, h.next, h.limit]
  by_cases hlt : (claimers us).length < limit
  · have hmin : min (claimers us).length limit = (claimers us).length :=
      Nat.min_eq_left (Nat.le_of_lt hlt)
    simp [hmin, hlt]
  · have hmin : min (claimers us).length limit = limit :=
      Nat.min_eq_right (Nat.not_lt.1 hlt)
    simp [hmin, hlt]

end Shows

/-- **What a cursor shows** after any sequence of uses. -/
theorem shows_after (limit : Nat) (us : List (Use κ)) :
    Shows limit us ((fresh limit).after us) := by
  induction us using List.reverseRecOn with
  | nil => exact shows_fresh limit
  | append_singleton us u ih =>
      rw [after_append]
      exact ih.used u

/-! ### What the claims give -/

/-- **Each claim has its own number**, which depends on the claims before it only. -/
theorem indices_answers (limit : Nat) (us : List (Use κ)) :
    ((fresh limit).answers us).map (fun a => (a.caller, a.given.index))
      = (claimers us).mapIdx fun k caller => (caller, if k < limit then some k else none) := by
  induction us using List.reverseRecOn with
  | nil => rfl
  | append_singleton us u ih =>
      rw [answers_concat, List.map_append, ih, claimers_append]
      cases u with
      | claim caller => simp [answer?, (shows_after limit us).index, List.mapIdx_concat]
      | poison holder => simp [answer?]

theorem length_answers (limit : Nat) (us : List (Use κ)) :
    ((fresh limit).answers us).length = (claimers us).length := by
  simpa using congrArg List.length (indices_answers limit us)

/-- The next number comes last, unless it has reached the limit. -/
theorem range_min_succ (n limit : Nat) :
    List.range (min (n + 1) limit)
      = List.range (min n limit) ++ if n < limit then [n] else [] := by
  by_cases hlt : n < limit
  · have hnow : min n limit = n := Nat.min_eq_left (Nat.le_of_lt hlt)
    have hnext : min (n + 1) limit = n + 1 := Nat.min_eq_left hlt
    rw [hnow, hnext, if_pos hlt, List.range_succ]
  · have hnow : min n limit = limit := Nat.min_eq_right (Nat.not_lt.1 hlt)
    have hnext : min (n + 1) limit = limit := Nat.min_eq_right (by omega)
    rw [hnow, hnext, if_neg hlt, List.append_nil]

/-- **The numbers come out in order**, without gap or repetition, until all are handed out. -/
theorem handedOut (limit : Nat) (us : List (Use κ)) :
    ((fresh limit).answers us).filterMap (fun a => a.given.index)
      = List.range (min (claimers us).length limit) := by
  induction us using List.reverseRecOn with
  | nil => simp [answers, claimers]
  | append_singleton us u ih =>
      rw [answers_concat, List.filterMap_append, ih, claimers_append]
      cases u with
      | claim caller =>
          rw [claimers_claim, List.length_append, List.length_singleton, range_min_succ]
          simp only [answer?, Option.toList_some, List.filterMap_cons, List.filterMap_nil,
            (shows_after limit us).index]
          by_cases hlt : (claimers us).length < limit <;> simp [hlt]
      | poison holder => simp [answer?]

/-- The answer to a claim is the one with the number of claims before it. -/
theorem answers_getElem? (limit : Nat) (earlier later : List (Use κ)) (caller : κ) :
    ((fresh limit).answers (earlier ++ .claim caller :: later))[(claimers earlier).length]?
      = some ⟨caller, ((fresh limit).after earlier).claim.1,
          ((fresh limit).after earlier).claimEvents⟩ := by
  rw [answers_append, ← length_answers limit earlier]
  simp [answers, answer?]

/-! ### Words -/

/-- The counter in words of 64 bits, whose addition wraps around, after one use. -/
def wordUsed (limit next : UInt64) : Use κ → UInt64
  | .claim _ => if next < limit then next + 1 else next
  | .poison _ => next

/-- The counter in words of 64 bits after a sequence of uses. -/
def wordAfter (limit : UInt64) (us : List (Use κ)) : UInt64 := us.foldl (wordUsed limit) 0

/-- **Words do not wrap around**, since the counter is below the limit when it moves. -/
theorem toNat_wordAfter (limit : UInt64) (us : List (Use κ)) :
    (wordAfter limit us).toNat = ((fresh limit.toNat).after us).next := by
  induction us using List.reverseRecOn with
  | nil => rfl
  | append_singleton us u ih =>
      rw [wordAfter, List.foldl_append, after_append]
      have hshows := shows_after limit.toNat us
      change (wordUsed limit (wordAfter limit us) u).toNat = _
      cases u with
      | claim caller =>
          change _ = ((fresh limit.toNat).after us).claimed.next
          rw [claimed, hshows.limit, ← ih, wordUsed]
          by_cases hlt : wordAfter limit us < limit
          · have hnat : (wordAfter limit us).toNat < limit.toNat := UInt64.lt_iff_toNat_lt.1 hlt
            have hbound := limit.toNat_lt
            rw [if_pos hlt, UInt64.toNat_add, UInt64.toNat_one]
            simp only [if_pos hnat]
            exact Nat.mod_eq_of_lt (by omega)
          · have hnat : ¬ (wordAfter limit us).toNat < limit.toNat :=
              fun hnat => hlt (UInt64.lt_iff_toNat_lt.2 hnat)
            rw [if_neg hlt]
            simp only [if_neg hnat]
      | poison holder => exact ih

/-! ### Any sequence of uses -/

/-- **What there is to say about a sequence of uses** of a cursor with a limit. -/
structure GapFree (limit : Nat) (us : List (Use κ)) : Prop where
  /-- the `k`-th claim, counted from zero, gives `k` to its caller if that is below the limit, and
  otherwise nothing, wherever somebody has panicked -/
  indices : ((fresh limit).answers us).map (fun a => (a.caller, a.given.index))
    = (claimers us).mapIdx fun k caller => (caller, if k < limit then some k else none)
  /-- the numbers handed out are those from zero on, in order, each of them once -/
  range : ((fresh limit).answers us).filterMap (fun a => a.given.index)
    = List.range (min (claimers us).length limit)
  /-- a claim reports a poisoned mutex, and logs it, exactly if somebody has panicked since the
  claim before it, and it reports nothing else -/
  faults : ∀ earlier caller later, us = earlier ++ .claim caller :: later →
    ∃ a, ((fresh limit).answers us)[(claimers earlier).length]? = some a ∧ a.caller = caller
      ∧ (Unheeded earlier →
          a.given.fault = some (.poisoned .take) ∧ a.events = [.recovering .take])
      ∧ (¬ Unheeded earlier → a.given.fault = none ∧ a.events = [])
  /-- at any time the counter is the number of claims so far, or the limit if there were more -/
  counter : ∀ earlier later, us = earlier ++ later →
    ((fresh limit).after earlier).next = min (claimers earlier).length limit
  /-- the counter is the same in words of 64 bits, even if the limit is the largest word -/
  words : ∀ word : UInt64, word.toNat = limit → ∀ earlier later, us = earlier ++ later →
    (wordAfter word earlier).toNat = ((fresh limit).after earlier).next

/-- **Claims are gap-free under poisoning**, for every limit and every sequence of uses. -/
theorem gapFree (limit : Nat) (us : List (Use κ)) : GapFree limit us where
  indices := indices_answers limit us
  range := handedOut limit us
  faults := by
    rintro earlier caller later rfl
    have hshown := (shows_after limit earlier).poisoned
    refine ⟨_, answers_getElem? limit earlier later caller, rfl, fun h => ?_, fun h => ?_⟩
    · simp [claim, offer, claimEvents, hshown.2 h]
    · simp [claim, offer, claimEvents, Bool.eq_false_iff.2 (mt hshown.1 h)]
  counter := fun earlier _ _ => (shows_after limit earlier).next
  words := by
    rintro word rfl earlier - -
    exact toNat_wordAfter word earlier

/-- Panics cost one report by the next claim and nothing else, also once all is handed out. -/
example : ((fresh 1).answers [.poison 0, .poison 1, .claim 2, .claim 2, .poison 0, .claim 1]).map
      (fun a => (a.caller, a.given))
    = [(2, ⟨some 0, some (.poisoned .take)⟩), (2, ⟨none, none⟩),
      (1, ⟨none, some (.poisoned .take)⟩)] := by decide

end OrderedDispatch.TakeCursor
