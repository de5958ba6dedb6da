import Mathlib.Data.List.Basic

/-!
# Streams of frames

A stream is the concatenation of the encodings of a list of items.  This module says
what a stream looks like when it is cut at some position: whole frames, and the beginning
of the next one.
-/

namespace Redisoo
namespace Foundation
namespace Framing

open List

variable {item symbol : Type _} (enc : item -> List symbol)

def whole : Nat -> List item -> List item
  | _, [] => []
  | n, x :: xs =>
    if (enc x).length ≤ n then x :: whole (n - (enc x).length) xs else []

def left (n : Nat) (xs : List item) : Nat :=
  n - ((whole enc n xs).flatMap enc).length

def open_ (n : Nat) (xs : List item) : List item :=
  xs.drop (whole enc n xs).length

variable {enc} {n : Nat} {x : item} {xs : List item}

theorem whole_cons_le (h : (enc x).length ≤ n) :
    whole enc n (x :: xs) = x :: whole enc (n - (enc x).length) xs := by
  rw [whole, if_pos h]

theorem whole_cons_gt (h : n < (enc x).length) : whole enc n (x :: xs) = [] := by
  rw [whole, if_neg (Nat.not_le_of_lt h)]

theorem left_cons_le (h : (enc x).length ≤ n) :
    left enc n (x :: xs) = left enc (n - (enc x).length) xs := by
  unfold left
  rw [whole_cons_le h, flatMap_cons, length_append]
  lia

theorem left_cons_gt (h : n < (enc x).length) : left enc n (x :: xs) = n := by
  unfold left
  rw [whole_cons_gt h]
  rfl

theorem open_cons_le (h : (enc x).length ≤ n) :
    open_ enc n (x :: xs) = open_ enc (n - (enc x).length) xs := by
  unfold open_
  rw [whole_cons_le h, length_cons, drop_succ_cons]

theorem open_cons_gt (h : n < (enc x).length) : open_ enc n (x :: xs) = x :: xs := by
  unfold open_
  rw [whole_cons_gt h]
  rfl

theorem whole_append_open (enc : item -> List symbol) (n : Nat) (xs : List item) :
    whole enc n xs ++ open_ enc n xs = xs := by
  induction xs generalizing n with
  | nil => rfl
  | cons x xs ih =>
    by_cases h : (enc x).length ≤ n
    · rw [whole_cons_le h, open_cons_le h, cons_append, ih]
    · rw [whole_cons_gt (Nat.lt_of_not_le h), open_cons_gt (Nat.lt_of_not_le h)]
      rfl

theorem left_lt {rest : List item} (h : open_ enc n xs = x :: rest) :
    left enc n xs < (enc x).length := by
  induction xs generalizing n with
  | nil => cases h
  | cons y xs ih =>
    by_cases hle : (enc y).length ≤ n
    · rw [open_cons_le hle] at h
      rw [left_cons_le hle]
      exact ih h
    rw [open_cons_gt (Nat.lt_of_not_le hle)] at h
    cases h
    rw [left_cons_gt (Nat.lt_of_not_le hle)]
    exact Nat.lt_of_not_le hle

theorem whole_length_le (enc : item -> List symbol) (n : Nat) (xs : List item) :
    ((whole enc n xs).flatMap enc).length ≤ n := by
  induction xs generalizing n with
  | nil => exact Nat.zero_le n
  | cons x xs ih =>
    by_cases h : (enc x).length ≤ n
    · have hrest := ih (n - (enc x).length)
      rw [whole_cons_le h, flatMap_cons, length_append]
      lia
    · rw [whole_cons_gt (Nat.lt_of_not_le h)]
      exact Nat.zero_le n

theorem whole_stream (xs : List item) : whole enc (xs.flatMap enc).length xs = xs := by
  induction xs with
  | nil => rfl
  | cons x xs ih =>
    have hle : (enc x).length ≤ ((x :: xs).flatMap enc).length := by
      rw [flatMap_cons, length_append]
      lia
    have hsub : ((x :: xs).flatMap enc).length - (enc x).length = (xs.flatMap enc).length := by
      rw [flatMap_cons, length_append]
      lia
    rw [whole_cons_le hle, hsub, ih]

def begun (enc : item -> List symbol) (n : Nat) : List item -> List symbol
  | [] => []
  | x :: _ => (enc x).take n

theorem take_stream (enc : item -> List symbol) (n : Nat) (xs : List item) :
    (xs.flatMap enc).take n =
      (whole enc n xs).flatMap enc ++ begun enc (left enc n xs) (open_ enc n xs) := by
  induction xs generalizing n with
  | nil => simp [whole, open_, begun]
  | cons x xs ih =>
    by_cases h : (enc x).length ≤ n
    · rw [whole_cons_le h, open_cons_le h, left_cons_le h, flatMap_cons, flatMap_cons,
        take_append, take_of_length_le h, ih, append_assoc]
    have hlt : n < (enc x).length := Nat.lt_of_not_le h
    rw [whole_cons_gt hlt, open_cons_gt hlt, left_cons_gt hlt, flatMap_cons,
      take_append_of_le_length (Nat.le_of_lt hlt)]
    rfl

end Framing
end Foundation
end Redisoo
