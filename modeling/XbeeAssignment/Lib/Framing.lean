import Mathlib.Tactic.Common
import Mathlib.Data.List.Basic
import Mathlib.Tactic.Ring

/-!
# Cutting a stream into packages of one size

`Framed size stream packages pending` says that a receiver which has seen
`stream` has handed out `packages`, all of length `size`, and still holds
`pending`, without loss, duplication or reordering.  A receiver goes through
three operations, each of which keeps the relation: it starts empty, it is fed
more of the stream, and it hands out the front of what it holds.
-/

namespace Framing

variable {α : Type*} {size : ℕ} {stream pending : List α} {packages : List (List α)}

/-- The packages, all of length `size`, followed by what is pending, are the
stream. -/
structure Framed (size : ℕ) (stream : List α) (packages : List (List α)) (pending : List α) :
    Prop where
  length_eq : ∀ package ∈ packages, package.length = size
  stream_eq : packages.flatten ++ pending = stream

/-- The packages of `size` elements at the front of a stream, all there are. -/
def cut (size : ℕ) (stream : List α) : List (List α) :=
  (List.range (stream.length / size)).map fun k => (stream.drop (k * size)).take size

namespace Framed

theorem empty (size : ℕ) : Framed size ([] : List α) [] [] :=
  ⟨by simp, rfl⟩

theorem feed (h : Framed size stream packages pending) (more : List α) :
    Framed size (stream ++ more) packages (pending ++ more) :=
  ⟨h.length_eq, by rw [← h.stream_eq, List.append_assoc]⟩

theorem deliver {front : List (List α)} {rest : List α}
    (h : Framed size stream packages (front.flatten ++ rest))
    (hfront : ∀ package ∈ front, package.length = size) :
    Framed size stream (packages ++ front) rest := by
  constructor
  · intro package hpackage
    rcases List.mem_append.mp hpackage with hold | hnew
    · exact h.length_eq package hold
    · exact hfront package hnew
  · rw [List.flatten_append, List.append_assoc, h.stream_eq]

theorem length_flatten (h : ∀ package ∈ packages, package.length = size) :
    packages.flatten.length = packages.length * size := by
  induction packages with
  | nil => simp
  | cons package packages ih =>
      have hhead := h package (List.mem_cons_self ..)
      have htail := ih fun other hother => h other (List.mem_cons_of_mem _ hother)
      rw [List.flatten_cons, List.length_append, hhead, htail, List.length_cons]
      ring

/-- Of a number of whole packages less than one more is pending only if nothing is. -/
theorem whole (h : Framed size stream packages pending) {k : ℕ}
    (hstream : stream.length = k * size) (hpending : pending.length < size) :
    packages.length = k ∧ pending = [] := by
  have hlength := congrArg List.length h.stream_eq
  rw [List.length_append, length_flatten h.length_eq, hstream] at hlength
  have hcount : packages.length = k := by
    have hpos : 0 < size := (Nat.zero_le _).trans_lt hpending
    calc packages.length = (packages.length * size + pending.length) / size := by
          rw [Nat.mul_comm, Nat.mul_add_div hpos, Nat.div_eq_of_lt hpending, Nat.add_zero]
      _ = k := by rw [hlength, Nat.mul_div_cancel _ hpos]
  rw [hcount] at hlength
  exact ⟨hcount, List.length_eq_zero_iff.mp (by omega)⟩

/-- The `k`-th package is the `k`-th stretch of `size` elements of the stream. -/
theorem getElem?_eq (h : Framed size stream packages pending) {k : ℕ} {package : List α}
    (hk : packages[k]? = some package) : package = (stream.drop (k * size)).take size := by
  obtain ⟨hlt, hget⟩ := List.getElem?_eq_some_iff.mp hk
  have hsplit : packages = packages.take k ++ package :: packages.drop (k + 1) := by
    rw [← hget, ← List.drop_eq_getElem_cons, List.take_append_drop]
  have hbefore : (packages.take k).flatten.length = k * size := by
    rw [length_flatten fun other hother => h.length_eq other (List.mem_of_mem_take hother),
      List.length_take_of_le hlt.le]
  have hpackage : package.length = size :=
    h.length_eq package (List.mem_of_getElem? hk)
  have hflat : packages.flatten =
      (packages.take k).flatten ++ (package ++ (packages.drop (k + 1)).flatten) := by
    rw [← List.flatten_cons, ← List.flatten_append, ← hsplit]
  calc package = (package ++ ((packages.drop (k + 1)).flatten ++ pending)).take size :=
        (List.take_left' hpackage).symm
    _ = (((packages.take k).flatten ++
            (package ++ ((packages.drop (k + 1)).flatten ++ pending))).drop
          (k * size)).take size := by
        rw [List.drop_left' hbefore]
    _ = (stream.drop (k * size)).take size := by
        rw [← h.stream_eq, hflat, List.append_assoc, List.append_assoc]

/-- There are as many packages as the stream has, if less than one more is pending. -/
theorem length_packages (h : Framed size stream packages pending)
    (hpending : pending.length < size) : packages.length = stream.length / size := by
  have hpos : 0 < size := (Nat.zero_le _).trans_lt hpending
  have hlength := congrArg List.length h.stream_eq
  rw [List.length_append, length_flatten h.length_eq] at hlength
  calc packages.length = (packages.length * size + pending.length) / size := by
        rw [Nat.mul_comm, Nat.mul_add_div hpos, Nat.div_eq_of_lt hpending, Nat.add_zero]
    _ = stream.length / size := by rw [hlength]

/-- A receiver that holds less than a package has handed out what `cut` says. -/
theorem eq_cut (h : Framed size stream packages pending) (hpending : pending.length < size) :
    packages = cut size stream := by
  have hcount := h.length_packages hpending
  refine List.ext_getElem? fun k => ?_
  by_cases hk : k < packages.length
  · have hget := List.getElem?_eq_getElem hk
    rw [hget, h.getElem?_eq hget, cut, List.getElem?_map, List.getElem?_range (hcount ▸ hk),
      Option.map_some]
  · rw [List.getElem?_eq_none (not_lt.mp hk), List.getElem?_eq_none]
    rw [cut, List.length_map, List.length_range, ← hcount]
    exact not_lt.mp hk

/-- Two ways of cutting one stream agree as far as both go. -/
theorem begin_of_flatten {whole : List (List α)} {rest : List α}
    (hpackages : ∀ package ∈ packages, package.length = size)
    (hwhole : ∀ package ∈ whole, package.length = size) (hrest : rest.length < size)
    (hbegins : packages.flatten <+: whole.flatten ++ rest) : packages <+: whole := by
  induction packages generalizing whole with
  | nil => exact List.nil_prefix
  | cons package packages ih =>
      have hpackage := hpackages package (List.mem_cons_self ..)
      rw [List.flatten_cons] at hbegins
      cases whole with
      | nil =>
          have hle := hbegins.length_le
          rw [List.flatten_nil, List.nil_append, List.length_append] at hle
          omega
      | cons first whole =>
          have hfirst := hwhole first (List.mem_cons_self ..)
          rw [List.flatten_cons, List.append_assoc] at hbegins
          obtain ⟨later, hlater⟩ := hbegins
          rw [List.append_assoc] at hlater
          obtain ⟨hsame, htail⟩ := List.append_inj hlater (hpackage.trans hfirst.symm)
          subst hsame
          rw [List.prefix_cons_inj]
          exact ih (fun other hother => hpackages other (List.mem_cons_of_mem _ hother))
            (fun other hother => hwhole other (List.mem_cons_of_mem _ hother)) ⟨later, htail⟩

/-- What was cut from the beginning of whole packages and less than a package more are the first
of these packages. -/
theorem packages_begin (h : Framed size stream packages pending) {whole : List (List α)}
    {rest : List α} (hwhole : ∀ package ∈ whole, package.length = size)
    (hrest : rest.length < size) (hstream : stream <+: whole.flatten ++ rest) :
    packages <+: whole := by
  have hpackages : packages.flatten <+: stream := ⟨pending, h.stream_eq⟩
  exact begin_of_flatten h.length_eq hwhole hrest (hpackages.trans hstream)

end Framed

end Framing
