import Mathlib

/-!
# Frames between delimiters

A frame in a stream starts with one symbol, ends with another, and contains
neither in between.  This module has the two functions a receiver of such a
stream needs in terms of lists: the frames a list contains, and the suffix of a
list that resynchronization keeps.  A suffix is kept exactly when a frame starts
there or may still grow there, so cutting a buffer down to it loses no frame
whatever arrives later.
-/

namespace Foundation
namespace Delimited

variable {α β : Type _} [DecidableEq α]

/-!
## Cutting at a symbol
-/

/-- The part before the first `stop`, and the part after it if there is one. -/
def cutAt (stop : α) : List α -> List α × Option (List α)
  | [] => ([], none)
  | x :: xs =>
      if x = stop then
        ([], some xs)
      else
        (x :: (cutAt stop xs).1, (cutAt stop xs).2)

theorem cutAt_of_split {stop : α} {a b : List α} (ha : stop ∉ a) :
    cutAt stop (a ++ stop :: b) = (a, some b) := by
  induction a with
  | nil => simp [cutAt]
  | cons x a ih =>
      have hx : x ≠ stop := fun h => ha (by simp [h])
      have hrest := ih (fun h => ha (List.mem_cons_of_mem _ h))
      simp [cutAt, hx, hrest]

theorem cutAt_of_not_mem {stop : α} {l : List α} (hl : stop ∉ l) :
    cutAt stop l = (l, none) := by
  induction l with
  | nil => rfl
  | cons x l ih =>
      have hx : x ≠ stop := fun h => hl (by simp [h])
      have hrest := ih (fun h => hl (List.mem_cons_of_mem _ h))
      simp [cutAt, hx, hrest]

/-- Either the symbol does not occur, or the list is cut at its first
occurrence. -/
theorem not_mem_or_split (stop : α) (l : List α) :
    stop ∉ l ∨ exists a b, l = a ++ stop :: b ∧ stop ∉ a := by
  by_cases h : stop ∈ l
  · exact Or.inr (List.eq_append_cons_of_mem h)
  · exact Or.inl h

/-- Either the symbol does not occur, or the list is cut at its last
occurrence. -/
theorem not_mem_or_split_last (start : α) (l : List α) :
    start ∉ l ∨ exists a b, l = a ++ start :: b ∧ start ∉ b := by
  rcases not_mem_or_split start l.reverse with h | ⟨a, b, h, ha⟩
  · exact Or.inl fun hmem => h (List.mem_reverse.mpr hmem)
  · refine Or.inr ⟨b.reverse, a.reverse, ?_, ?_⟩
    · simpa using congrArg List.reverse h
    · simpa using ha

theorem cutAt_fst_subset (stop : α) (l : List α) :
    forall x, x ∈ (cutAt stop l).1 -> x ∈ l := by
  intro x hx
  rcases not_mem_or_split stop l with h | ⟨a, b, rfl, ha⟩
  · rwa [cutAt_of_not_mem h] at hx
  · rw [cutAt_of_split ha] at hx
    exact List.mem_append_left _ hx

/-- Text that comes later only adds to the part before the first `stop`. -/
theorem cutAt_fst_append (stop : α) (l t : List α) :
    forall x, x ∈ (cutAt stop l).1 -> x ∈ (cutAt stop (l ++ t)).1 := by
  intro x hx
  rcases not_mem_or_split stop l with h | ⟨a, b, rfl, ha⟩
  · rw [cutAt_of_not_mem h] at hx
    rcases not_mem_or_split stop t with ht | ⟨c, d, rfl, hc⟩
    · rw [cutAt_of_not_mem (by simp [h, ht])]
      exact List.mem_append_left _ hx
    · rw [← List.append_assoc, cutAt_of_split (by simp [h, hc])]
      exact List.mem_append_left _ hx
  · rw [cutAt_of_split ha] at hx
    rwa [List.append_assoc, List.cons_append, cutAt_of_split ha]

section Framing

variable (start stop : α) (parse : List α -> Option β)

/-!
## The frames of a list
-/

/-- The frame that starts at the head of a list, read by `parse`. -/
def frameAtHead : List α -> Option β
  | [] => none
  | x :: xs =>
      if x = start then
        match cutAt stop xs with
        | (body, some _) => if start ∈ body then none else parse body
        | (_, none) => none
      else
        none

/-- The frames a list contains, from front to back. -/
def frames : List α -> List β
  | [] => []
  | x :: xs => (frameAtHead start stop parse (x :: xs)).toList ++ frames xs

variable {start stop parse}

@[simp] theorem frames_nil : frames start stop parse [] = [] := rfl

theorem frames_cons (x : α) (xs : List α) :
    frames start stop parse (x :: xs) =
      (frameAtHead start stop parse (x :: xs)).toList ++
        frames start stop parse xs := rfl

theorem frameAtHead_of_ne {x : α} (hx : x ≠ start) (xs : List α) :
    frameAtHead start stop parse (x :: xs) = none := by
  simp [frameAtHead, hx]

theorem frameAtHead_of_frame {body : List α} (hstop : stop ∉ body)
    (hstart : start ∉ body) (rest : List α) :
    frameAtHead start stop parse (start :: (body ++ stop :: rest)) =
      parse body := by
  simp [frameAtHead, cutAt_of_split hstop, hstart]

theorem frameAtHead_of_start_mem {xs : List α}
    (h : start ∈ (cutAt stop xs).1) :
    frameAtHead start stop parse (start :: xs) = none := by
  rcases not_mem_or_split stop xs with hstop | ⟨a, b, rfl, ha⟩
  · simp [frameAtHead, cutAt_of_not_mem hstop]
  · rw [cutAt_of_split ha] at h
    simp [frameAtHead, cutAt_of_split ha, h]

theorem frames_of_head_none {x : α} {xs : List α}
    (h : frameAtHead start stop parse (x :: xs) = none) :
    frames start stop parse (x :: xs) = frames start stop parse xs := by
  simp [frames_cons, h]

/-- Text without a start symbol holds no part of a frame's front. -/
theorem frames_append_of_not_mem {a l : List α} (ha : start ∉ a) :
    frames start stop parse (a ++ l) = frames start stop parse l := by
  induction a with
  | nil => rfl
  | cons x a ih =>
      have hx : x ≠ start := fun h => ha (by simp [h])
      rw [List.cons_append, frames_of_head_none (frameAtHead_of_ne hx _)]
      exact ih fun h => ha (List.mem_cons_of_mem _ h)

theorem frames_of_not_mem {l : List α} (hl : start ∉ l) :
    frames start stop parse l = [] := by
  rw [← List.append_nil l, frames_append_of_not_mem hl, frames_nil]

/-- A whole frame contributes what `parse` reads in it, and nothing else. -/
theorem frames_of_frame (hne : stop ≠ start) {body rest : List α}
    (hstop : stop ∉ body) (hstart : start ∉ body) :
    frames start stop parse (start :: (body ++ stop :: rest)) =
      (parse body).toList ++ frames start stop parse rest := by
  rw [frames_cons, frameAtHead_of_frame hstop hstart rest]
  congr 1
  rw [List.append_cons body stop rest, frames_append_of_not_mem]
  simp [hstart, hne.symm]

/-- A frame too long for `parse` contributes nothing, wherever it may end. -/
theorem frames_of_overlong {limit : Nat}
    (hlimit : forall body m, parse body = some m -> body.length <= limit)
    {xs t : List α} (hstop : stop ∉ xs) (hlong : limit < xs.length) :
    frames start stop parse (start :: (xs ++ t)) =
      frames start stop parse (xs ++ t) := by
  apply frames_of_head_none
  rcases not_mem_or_split stop t with ht | ⟨c, d, rfl, hc⟩
  · have hnone : stop ∉ xs ++ t := by simp [hstop, ht]
    simp [frameAtHead, cutAt_of_not_mem hnone]
  · have hbody : stop ∉ xs ++ c := by simp [hstop, hc]
    rw [← List.append_assoc]
    simp only [frameAtHead, if_true, cutAt_of_split hbody]
    split
    · rfl
    · cases hparse : parse (xs ++ c) with
      | none => rfl
      | some m =>
          have := hlimit _ m hparse
          simp at this
          omega

/-- No frame starts too close before an end for `parse`. -/
theorem frames_of_too_short (hne : stop ≠ start) {limit : Nat}
    (hlimit : forall body m, parse body = some m -> limit <= body.length)
    {a l : List α} (ha : a.length <= limit) :
    frames start stop parse (a ++ stop :: l) = frames start stop parse l := by
  induction a with
  | nil => exact frames_of_head_none (frameAtHead_of_ne hne l)
  | cons x a ih =>
      rw [List.length_cons] at ha
      rw [List.cons_append, frames_of_head_none, ih (by omega)]
      by_cases hx : x = start
      · subst hx
        have hcut : exists body rest, body.length <= a.length ∧
            cutAt stop (a ++ stop :: l) = (body, some rest) := by
          rcases not_mem_or_split stop a with hstop | ⟨b, c, rfl, hb⟩
          · exact ⟨a, l, Nat.le_refl _, cutAt_of_split hstop⟩
          · refine ⟨b, c ++ stop :: l, by simp, ?_⟩
            rw [List.append_assoc, List.cons_append, cutAt_of_split hb]
        rcases hcut with ⟨body, rest, hlen, hcut⟩
        have hparse : parse body = none := by
          cases h : parse body with
          | none => rfl
          | some m =>
              have := hlimit body m h
              omega
        simp [frameAtHead, hcut, hparse]
      · exact frameAtHead_of_ne hx _

/-- Every frame of a list stands in it between its two delimiters. -/
theorem exists_of_mem_frames {l : List α} {m : β}
    (hm : m ∈ frames start stop parse l) :
    exists front body rest,
      l = front ++ start :: (body ++ stop :: rest) ∧
        start ∉ body ∧ stop ∉ body ∧ parse body = some m := by
  induction l with
  | nil => cases hm
  | cons x xs ih =>
      rw [frames_cons, List.mem_append] at hm
      rcases hm with hhead | hrest
      · by_cases hx : x = start
        · subst hx
          rcases not_mem_or_split stop xs with hstop | ⟨a, b, rfl, ha⟩
          · simp [frameAtHead, cutAt_of_not_mem hstop] at hhead
          · by_cases hstart : x ∈ a
            · simp [frameAtHead, cutAt_of_split ha, hstart] at hhead
            · rw [frameAtHead_of_frame ha hstart b] at hhead
              exact ⟨[], a, b, rfl, hstart, ha, by simpa using hhead⟩
        · simp [frameAtHead_of_ne hx] at hhead
      · rcases ih hrest with ⟨front, body, rest, rfl, hparts⟩
        exact ⟨x :: front, body, rest, rfl, hparts⟩

/-- What one way of reading finds, a looser one finds too, in the same order. -/
theorem frames_sublist {loose : List α -> Option β}
    (h : forall body m, parse body = some m -> loose body = some m)
    (l : List α) :
    List.Sublist (frames start stop parse l) (frames start stop loose l) := by
  have hhead (l : List α) (m : β)
      (hm : frameAtHead start stop parse l = some m) :
      frameAtHead start stop loose l = some m := by
    cases l with
    | nil => cases hm
    | cons x xs =>
        rw [frameAtHead] at hm ⊢
        split at hm
        · rename_i hx
          rw [if_pos hx]
          rcases hcut : cutAt stop xs with ⟨body, later⟩
          rw [hcut] at hm
          cases later with
          | none => cases hm
          | some later =>
              simp only at hm ⊢
              split at hm
              · cases hm
              · rename_i hstart
                rw [if_neg hstart]
                exact h body m hm
        · cases hm
  induction l with
  | nil => exact List.Sublist.refl _
  | cons x xs ih =>
      rw [frames_cons, frames_cons]
      apply List.Sublist.append _ ih
      cases hm : frameAtHead start stop parse (x :: xs) with
      | none => exact List.nil_sublist _
      | some m =>
          rw [hhead _ _ hm]

/-!
## Resynchronization
-/

variable (start stop) in
/-- The longest suffix at whose head a frame starts or may still grow: no other
frame starts before the first end. -/
def resync : List α -> List α
  | [] => []
  | x :: xs =>
      if x = start ∧ start ∉ (cutAt stop xs).1 then
        x :: xs
      else
        resync xs

variable (start stop) in
/-- What resynchronization keeps is empty or starts an open frame. -/
theorem resync_cases (l : List α) :
    resync start stop l = [] ∨
      exists xs, resync start stop l = start :: xs ∧
        start ∉ (cutAt stop xs).1 := by
  induction l with
  | nil => exact Or.inl rfl
  | cons x xs ih =>
      rw [resync]
      split
      · rename_i h
        exact Or.inr ⟨xs, by rw [h.left], h.right⟩
      · exact ih

theorem resync_of_open {xs : List α} (h : start ∉ (cutAt stop xs).1) :
    resync start stop (start :: xs) = start :: xs := by
  simp [resync, h]

theorem resync_idem (l : List α) :
    resync start stop (resync start stop l) = resync start stop l := by
  rcases resync_cases start stop l with h | ⟨xs, h, hopen⟩
  · rw [h, resync]
  · rw [h, resync_of_open hopen]

variable (start stop) in
theorem resync_suffix (l : List α) :
    exists front, l = front ++ resync start stop l := by
  induction l with
  | nil => exact ⟨[], rfl⟩
  | cons x xs ih =>
      rw [resync]
      split
      · exact ⟨[], rfl⟩
      · rcases ih with ⟨front, hfront⟩
        exact ⟨x :: front, by rw [List.cons_append, ← hfront]⟩

theorem resync_append_of_not_mem {a l : List α} (ha : start ∉ a) :
    resync start stop (a ++ l) = resync start stop l := by
  induction a with
  | nil => rfl
  | cons x a ih =>
      have hx : x ≠ start := fun h => ha (by simp [h])
      simp only [List.cons_append, resync, hx, false_and, if_false]
      exact ih fun h => ha (List.mem_cons_of_mem _ h)

/-- No start before an open frame survives unless an end stands between. -/
theorem resync_append_of_open {a xs : List α} (ha : stop ∉ a)
    (h : start ∉ (cutAt stop xs).1) (hne : stop ≠ start) :
    resync start stop (a ++ start :: xs) = start :: xs := by
  induction a with
  | nil => exact resync_of_open h
  | cons x a ih =>
      have hrest := ih fun hmem => ha (List.mem_cons_of_mem _ hmem)
      have hmem : start ∈ (cutAt stop (a ++ start :: xs)).1 := by
        rw [List.append_cons]
        apply cutAt_fst_append
        rw [cutAt_of_not_mem]
        · simp
        · simp only [List.mem_append, List.mem_singleton, not_or]
          exact ⟨fun hmem => ha (List.mem_cons_of_mem _ hmem), hne⟩
      simp only [List.cons_append, resync, hmem, not_true, and_false, if_false]
      exact hrest

/-- No open frame is lost. -/
theorem exists_resync_eq_append {a b : List α}
    (h : start ∉ (cutAt stop b).1) :
    exists c, resync start stop (a ++ start :: b) = c ++ start :: b := by
  induction a with
  | nil => exact ⟨[], resync_of_open h⟩
  | cons x a ih =>
      rw [List.cons_append, resync]
      split
      · exact ⟨x :: a, rfl⟩
      · exact ih

/-!
## What resynchronization is for

The definition above looks for a start.  What its users want is the first
complete frame, or else the frame that may still grow.
-/

section Purpose

variable (start stop)

/-- A complete frame starts at the head of the list. -/
def StartsFrame (l : List α) : Prop :=
  exists body rest, l = start :: (body ++ stop :: rest) ∧
    start ∉ body ∧ stop ∉ body

/-- The list is the front of a frame that may still grow. -/
def GrowsFrame (l : List α) : Prop :=
  exists rest, l = start :: rest ∧ start ∉ rest ∧ stop ∉ rest

/-- The suffix of a list that begins at its first complete frame, or else at the
last start that follows every end, or else is empty. -/
inductive Resynchronized (l : List α) : List α -> Prop where
  | frame {front kept : List α} (hsplit : l = front ++ kept)
      (hframe : StartsFrame start stop kept)
      (hfirst : forall a b, l = a ++ b -> StartsFrame start stop b ->
        front.length <= a.length) : Resynchronized l kept
  | growing {front kept : List α}
      (hnone : forall a b, l = a ++ b -> ¬ StartsFrame start stop b)
      (hsplit : l = front ++ kept) (hgrows : GrowsFrame start stop kept) :
      Resynchronized l kept
  | nothing
      (hnone : forall a b, l = a ++ b -> ¬ StartsFrame start stop b)
      (hclosed : forall a b, l = a ++ start :: b -> stop ∈ b) :
      Resynchronized l []

variable {start stop}

/-- Every frame, complete or growing, starts in what is kept. -/
theorem suffix_resync {a b : List α}
    (h : StartsFrame start stop b ∨ GrowsFrame start stop b) :
    exists c, resync start stop (a ++ b) = c ++ b := by
  rcases h with ⟨body, rest, rfl, hstart, hstop⟩ | ⟨rest, rfl, hstart, hstop⟩
  · apply exists_resync_eq_append
    rwa [cutAt_of_split hstop]
  · apply exists_resync_eq_append
    rwa [cutAt_of_not_mem hstop]

omit [DecidableEq α] in
theorem stop_mem_of_startsFrame (hne : stop ≠ start) {c xs b : List α}
    (h : StartsFrame start stop b) (hsplit : start :: xs = c ++ b) :
    stop ∈ xs := by
  rcases h with ⟨body, rest, rfl, -, -⟩
  have hmem : stop ∈ start :: xs := by
    rw [hsplit]
    simp
  rcases List.mem_cons.mp hmem with heq | hmem
  · exact absurd heq hne
  · exact hmem

/-- **Resynchronization keeps exactly the right suffix.** -/
theorem resynchronized_resync (hne : stop ≠ start) (l : List α) :
    Resynchronized start stop l (resync start stop l) := by
  rcases resync_suffix start stop l with ⟨front, hfront⟩
  rcases resync_cases start stop l with hnil | ⟨xs, hxs, hopen⟩
  · have hlost {a b : List α} (hsplit : l = a ++ b)
        (h : StartsFrame start stop b ∨ GrowsFrame start stop b) : b = [] := by
      rcases suffix_resync h with ⟨c, hc⟩
      rw [← hsplit, hnil] at hc
      exact (List.append_eq_nil_iff.mp hc.symm).right
    rw [hnil]
    apply Resynchronized.nothing
    · intro a b hsplit h
      have hb := hlost hsplit (Or.inl h)
      rcases h with ⟨body, rest, rfl, -, -⟩
      cases hb
    · intro a b hsplit
      by_contra hstop
      rcases not_mem_or_split_last start (start :: b) with
        h | ⟨c, rest, hrest, hstart⟩
      · exact h (List.mem_cons_self ..)
      · have hgrows : GrowsFrame start stop (start :: rest) := by
          refine ⟨rest, rfl, hstart, fun hmem => ?_⟩
          have hb : stop ∈ start :: b := by
            rw [hrest]
            simp [hmem]
          rcases List.mem_cons.mp hb with heq | hb
          · exact hne heq
          · exact hstop hb
        have hcons := hlost (by rw [hsplit, hrest, ← List.append_assoc])
          (Or.inr hgrows)
        cases hcons
  · rcases not_mem_or_split stop xs with hstop | ⟨body, rest, rfl, hbody⟩
    · have hgrows : GrowsFrame start stop (start :: xs) := by
        rw [cutAt_of_not_mem hstop] at hopen
        exact ⟨xs, rfl, hopen, hstop⟩
      rw [hxs] at hfront ⊢
      refine Resynchronized.growing (fun a b hsplit h => ?_) hfront hgrows
      rcases suffix_resync (Or.inl h) with ⟨c, hc⟩
      rw [← hsplit, hxs] at hc
      exact hstop (stop_mem_of_startsFrame hne h hc)
    · have hframe : StartsFrame start stop
          (start :: (body ++ stop :: rest)) := by
        rw [cutAt_of_split hbody] at hopen
        exact ⟨body, rest, rfl, hopen, hbody⟩
      rw [hxs] at hfront ⊢
      refine Resynchronized.frame hfront hframe fun a b hsplit h => ?_
      rcases suffix_resync (Or.inl h) with ⟨c, hc⟩
      rw [← hsplit, hxs] at hc
      have hlen := congrArg List.length (hfront.symm.trans hsplit)
      have hlen' := congrArg List.length hc
      simp only [List.length_append] at hlen hlen'
      omega

/-- The first complete frame of a list, with what stands before and behind it. -/
structure FirstFrame (start stop : α) (l front frame rest : List α) :
    Prop where
  split : l = front ++ (frame ++ rest)
  shape : exists body, frame = start :: (body ++ [stop]) ∧
    start ∉ body ∧ stop ∉ body
  first : forall a b, l = a ++ b -> StartsFrame start stop b ->
    front.length <= a.length

/-- Resynchronization keeps the first complete frame and what follows it. -/
theorem resync_of_firstFrame (hne : stop ≠ start)
    {l front frame rest : List α}
    (h : FirstFrame start stop l front frame rest) :
    resync start stop l = frame ++ rest := by
  have hframe : StartsFrame start stop (frame ++ rest) := by
    rcases h.shape with ⟨body, rfl, hstart, hstop⟩
    exact ⟨body, rest, by simp, hstart, hstop⟩
  have hresync := resynchronized_resync hne l
  generalize resync start stop l = kept at hresync ⊢
  cases hresync with
  | frame hsplit hkept hfirst =>
      have hle := hfirst _ _ h.split hframe
      have hge := h.first _ _ hsplit hkept
      have hlen := Nat.le_antisymm hge hle
      have hsame := List.append_inj (h.split.symm.trans hsplit) hlen
      exact hsame.right.symm
  | growing hnone => exact absurd hframe (hnone _ _ h.split)
  | nothing hnone => exact absurd hframe (hnone _ _ h.split)

/-- A complete frame that resynchronization brings to the front is the first. -/
theorem exists_firstFrame_of_resync (hne : stop ≠ start)
    {l body rest : List α} (hstart : start ∉ body) (hstop : stop ∉ body)
    (h : resync start stop l = start :: (body ++ stop :: rest)) :
    exists front,
      FirstFrame start stop l front (start :: (body ++ [stop])) rest := by
  have hresync := resynchronized_resync hne l
  rw [h] at hresync
  generalize hl' : start :: (body ++ stop :: rest) = l' at hresync
  cases hresync with
  | @frame front kept hsplit hkept hfirst =>
      refine ⟨front, ?_, ⟨body, rfl, hstart, hstop⟩, hfirst⟩
      rw [hsplit, ← hl']
      simp
  | growing hnone hsplit hgrows =>
      rcases hgrows with ⟨xs, rfl, -, hxs⟩
      injection hl' with _ hxs'
      exact absurd (by simp [← hxs']) hxs
  | nothing => cases hl'

end Purpose

/-!
## Stops without a segment

A stop at the head of a list, or directly behind another stop, ends a segment
with nothing in it.
-/

section BareStops

variable (start stop) in
/-- The number of stops before the first start that stand directly behind
another one; `before` is what stands before the list. -/
def bareStops : (before : α) -> List α -> Nat
  | _, [] => 0
  | before, x :: xs =>
      if x = start then
        0
      else
        (if x = stop ∧ before = stop then 1 else 0) + bareStops x xs

variable (start stop) in
/-- Every stop before the first start has something other than a stop in front
of it. -/
def SegmentsFilled (l : List α) : Prop :=
  forall front back, l = front ++ stop :: back -> start ∉ front ->
    exists x, front.getLast? = some x ∧ x ≠ stop

theorem bareStops_append {a l : List α} (hstart : start ∉ a)
    (hstop : stop ∉ a) (before : α) :
    bareStops start stop before (a ++ l) =
      bareStops start stop (a.getLast?.getD before) l := by
  induction a generalizing before with
  | nil => rfl
  | cons x a ih =>
      simp only [List.mem_cons, not_or] at hstart hstop
      rw [List.cons_append, bareStops, if_neg (Ne.symm hstart.left),
        if_neg (fun h => hstop.left h.left.symm), ih hstart.right hstop.right,
        List.getLast?_cons, Nat.zero_add, Option.getD_some]

/-- A segment that is not empty is followed by a stop that is not bare. -/
theorem bareStops_of_segment (hne : stop ≠ start) {a b : List α}
    (ha : a ≠ []) (hstart : start ∉ a) (hstop : stop ∉ a) (before : α) :
    bareStops start stop before (a ++ stop :: b) =
      bareStops start stop stop b := by
  have hlast : a.getLast?.getD before ≠ stop := by
    rw [List.getLast?_eq_some_getLast ha, Option.getD_some]
    rintro heq
    exact hstop (heq ▸ List.getLast_mem ha)
  rw [bareStops_append hstart hstop, bareStops, if_neg hne,
    if_neg (fun h => hlast h.right), Nat.zero_add]

theorem bareStops_stop (hne : stop ≠ start) (b : List α) :
    bareStops start stop stop (stop :: b) = 1 + bareStops start stop stop b := by
  rw [bareStops, if_neg hne, if_pos ⟨rfl, rfl⟩]

theorem bareStops_of_not_mem {l : List α} (h : stop ∉ l) (before : α) :
    bareStops start stop before l = 0 := by
  induction l generalizing before with
  | nil => rfl
  | cons x l ih =>
      simp only [List.mem_cons, not_or] at h
      rw [bareStops]
      split
      · rfl
      · rw [if_neg (fun heq => h.left heq.left.symm), ih h.right]

theorem bareStops_of_start {front : List α} (h : stop ∉ front)
    (rest : List α) (before : α) :
    bareStops start stop before (front ++ start :: rest) = 0 := by
  induction front generalizing before with
  | nil => rw [List.nil_append, bareStops, if_pos rfl]
  | cons x front ih =>
      simp only [List.mem_cons, not_or] at h
      rw [List.cons_append, bareStops]
      split
      · rfl
      · rw [if_neg (fun heq => h.left heq.left.symm), ih h.right]

theorem bareStops_eq_zero_iff (hne : stop ≠ start) (before : α)
    (l : List α) :
    bareStops start stop before l = 0 <->
      forall front back, l = front ++ stop :: back -> start ∉ front ->
        front.getLast?.getD before ≠ stop := by
  induction l generalizing before with
  | nil => simp [bareStops]
  | cons x l ih =>
      rw [bareStops]
      by_cases hx : x = start
      · subst hx
        rw [if_pos rfl]
        refine iff_of_true rfl ?_
        intro front back hsplit hfront
        cases front with
        | nil => exact absurd (List.cons.inj hsplit).left.symm hne
        | cons y front =>
            have hy := (List.cons.inj hsplit).left
            exact absurd (by simp [hy]) hfront
      · rw [if_neg hx, Nat.add_eq_zero_iff, ih]
        constructor
        · rintro ⟨hhead, hrest⟩ front back hsplit hfront
          cases front with
          | nil =>
              intro hbefore
              have hstop := (List.cons.inj hsplit).left
              rw [if_pos ⟨hstop, hbefore⟩] at hhead
              cases hhead
          | cons y front =>
              rcases List.cons.inj hsplit with ⟨rfl, htail⟩
              simp only [List.mem_cons, not_or] at hfront
              rw [List.getLast?_cons, Option.getD_some]
              exact hrest front back htail hfront.right
        · intro h
          constructor
          · rw [if_neg]
            rintro ⟨rfl, hbefore⟩
            exact h [] l rfl (by simp) hbefore
          · intro front back hsplit hfront
            have hx' := h (x :: front) back (by rw [hsplit]; rfl)
              (by simp [hfront, Ne.symm hx])
            rwa [List.getLast?_cons, Option.getD_some] at hx'

theorem segmentsFilled_iff (hne : stop ≠ start) (l : List α) :
    SegmentsFilled start stop l <-> bareStops start stop stop l = 0 := by
  rw [bareStops_eq_zero_iff hne, SegmentsFilled]
  apply forall_congr'
  intro front
  cases front.getLast? <;> simp

end BareStops

/-- **Resynchronization loses no frame**, whatever arrives later. -/
theorem frames_resync_append (l t : List α) :
    frames start stop parse (resync start stop l ++ t) =
      frames start stop parse (l ++ t) := by
  induction l with
  | nil => rfl
  | cons x xs ih =>
      by_cases hkeep : x = start ∧ start ∉ (cutAt stop xs).1
      · rw [resync, if_pos hkeep]
      · rw [resync, if_neg hkeep, ih, List.cons_append,
          frames_of_head_none]
        by_cases hx : x = start
        · subst hx
          have hmem : x ∈ (cutAt stop xs).1 := by
            by_contra hnot
            exact hkeep ⟨rfl, hnot⟩
          exact frameAtHead_of_start_mem (cutAt_fst_append stop xs t x hmem)
        · exact frameAtHead_of_ne hx _

end Framing

end Delimited
end Foundation
