import Mathlib.Data.List.Basic

/-!
# Paths that are resolved on a stack of segments

A path is a text in which a separator closes a segment.  It is resolved from the
left: a closed segment changes the stack of the segments in front of it, or
cannot be closed there, and the last segment stays open.  What closing does is a
parameter, and so are the characters.

* `text` — the text of a stack and an open segment;
* `walk` — one character after the other; `walk_append`, `walk_open`;
* `walk_splitOn` — the same on the segments of a text; `splitOn_text`;
* `walk_invariant` — what closing keeps holds at the end;
* `uptoLast` — a text up to its last separator; `uptoLast_text` finds the stack
  below the open segment.
-/

namespace PathSegments

universe u

variable {α : Type u} (sep : α)

/-- The text of closed segments, the innermost one first, and an open one. -/
def text (stack : List (List α)) (cur : List α) : List α :=
  sep :: (stack.reverse.flatMap (· ++ [sep]) ++ cur)

/-- The open segment is longer by a character. -/
@[simp] theorem text_append (stack : List (List α)) (cur more : List α) :
    text sep stack cur ++ more = text sep stack (cur ++ more) := by
  simp [text]

/-- A closed segment ends with a separator. -/
theorem text_cons (stack : List (List α)) (name cur : List α) :
    text sep (name :: stack) cur = text sep stack (name ++ sep :: cur) := by
  simp [text]

theorem text_ne_nil (stack : List (List α)) (cur : List α) : text sep stack cur ≠ [] := by
  simp [text]

variable [DecidableEq α] (close : List (List α) → List α → Option (List (List α)))

/-- One character: the separator closes the open segment. -/
def walkStep (st : List (List α) × List α) (c : α) : Option (List (List α) × List α) :=
  if c = sep then (close st.1 st.2).map (·, []) else some (st.1, st.2 ++ [c])

/-- The characters of a text, one after the other. -/
def walk (st : List (List α) × List α) (cs : List α) : Option (List (List α) × List α) :=
  cs.foldlM (walkStep sep close) st

@[simp] theorem walk_nil (st : List (List α) × List α) : walk sep close st [] = some st := rfl

theorem walk_cons (st : List (List α) × List α) (c : α) (cs : List α) :
    walk sep close st (c :: cs) = (walkStep sep close st c).bind (walk sep close · cs) := rfl

theorem walk_append (st : List (List α) × List α) (cs ds : List α) :
    walk sep close st (cs ++ ds) = (walk sep close st cs).bind (walk sep close · ds) :=
  List.foldlM_append

/-- Characters of a segment lengthen the open one. -/
theorem walk_open {sep : α} {close : List (List α) → List α → Option (List (List α))}
    (stack : List (List α)) (cur : List α) {cs : List α} (hcs : sep ∉ cs) :
    walk sep close (stack, cur) cs = some (stack, cur ++ cs) := by
  induction cs generalizing cur with
  | nil => rw [walk_nil, List.append_nil]
  | cons c cs ih =>
      obtain ⟨hc, hcs⟩ := not_or.mp (fun h => hcs (List.mem_cons.mpr h))
      rw [walk_cons, walkStep, if_neg (Ne.symm hc), Option.bind_some, ih _ hcs,
        List.append_assoc, List.singleton_append]

/-- **Walking by segments.**  All segments of a text but the last are closed, one
after the other, the first of them behind what is open already. -/
theorem walk_splitOn (stack : List (List α)) (cur cs : List α) :
    walk sep close (stack, cur) cs =
      let segments := (cs.splitOn sep).modifyHead (cur ++ ·)
      (segments.dropLast.foldlM close stack).map (·, segments.getLastD []) := by
  induction cs generalizing stack cur with
  | nil => simp
  | cons c cs ih =>
      obtain ⟨first, rest, hsplit⟩ := List.exists_cons_of_ne_nil (List.splitOn_ne_nil sep cs)
      rw [List.splitOn_cons_eq_if_modifyHead, walk_cons, walkStep]
      by_cases hc : c = sep
      · rw [if_pos hc, if_pos (by simpa using hc), hsplit]
        cases hclose : close stack cur with
        | none => simp [hclose]
        | some stack' =>
            rw [Option.map_some, Option.bind_some, ih, hsplit]
            simp [hclose]
      · rw [if_neg hc, if_neg (by simpa using hc), Option.bind_some, ih, hsplit]
        simp

/-- **Invariant rule.**  What closing keeps of the stack, for segments without a
separator, holds of the stack at the end. -/
theorem walk_invariant {P : List (List α) → Prop} {Q : List α → Prop}
    (hclose : ∀ stack cur stack', P stack → Q cur → close stack cur = some stack' → P stack')
    (hopen : Q []) {cs : List α} (hmore : ∀ cur, ∀ c ∈ cs, Q cur → c ≠ sep → Q (cur ++ [c]))
    {st st' : List (List α) × List α} (hst : P st.1) (hcur : Q st.2)
    (h : walk sep close st cs = some st') : P st'.1 ∧ Q st'.2 := by
  induction cs generalizing st with
  | nil =>
      obtain rfl := Option.some.inj h
      exact ⟨hst, hcur⟩
  | cons c cs ih =>
      have htailMore : ∀ cur, ∀ c ∈ cs, Q cur → c ≠ sep → Q (cur ++ [c]) :=
        fun cur c hc => hmore cur c (List.mem_cons_of_mem _ hc)
      rw [walk_cons, walkStep] at h
      split at h
      · obtain ⟨mid, hmid, htail⟩ := Option.bind_eq_some_iff.mp h
        obtain ⟨stack', hstack', rfl⟩ := Option.map_eq_some_iff.mp hmid
        exact ih htailMore (hclose _ _ _ hst hcur hstack') hopen htail
      case isFalse hc =>
        exact @ih htailMore (st.1, st.2 ++ [c]) hst (hmore _ c (List.mem_cons_self ..) hcur hc) h

/-- The segments of the text of a stack. -/
theorem splitOn_text {sep : α} {stack : List (List α)} {cur : List α}
    (hstack : ∀ segment ∈ stack, sep ∉ segment) (hcur : sep ∉ cur) :
    (text sep stack cur).splitOn sep = [] :: (stack.reverse ++ [cur]) := by
  have hrest : ∀ segments : List (List α), (∀ segment ∈ segments, sep ∉ segment) →
      (segments.flatMap (· ++ [sep]) ++ cur).splitOn sep = segments ++ [cur] := by
    intro segments hsegments
    induction segments with
    | nil => exact List.splitOn_eq_singleton hcur
    | cons segment segments ih =>
        rw [List.flatMap_cons, List.append_assoc, List.append_assoc, List.singleton_append,
          List.splitOn_append_cons_self_of_not_mem (hsegments segment (by simp)),
          ih fun s hs => hsegments s (List.mem_cons_of_mem _ hs)]
        rfl
  rw [text, List.splitOn_cons_eq_if_modifyHead, if_pos (beq_self_eq_true sep), hrest]
  exact fun segment hsegment => hstack segment (List.mem_reverse.mp hsegment)

/-- A text up to its last separator, which it keeps. -/
def uptoLast (cs : List α) : Option (List α) :=
  match cs.reverse.dropWhile (· ≠ sep) with
  | [] => none
  | rest => some rest.reverse

theorem uptoLast_nil : uptoLast sep [] = none := rfl

/-- A separator at the end is the last one. -/
theorem uptoLast_concat_sep (cs : List α) : uptoLast sep (cs ++ [sep]) = some (cs ++ [sep]) := by
  simp [uptoLast]

/-- Another character at the end is passed over. -/
theorem uptoLast_concat_of_ne {sep c : α} (hc : c ≠ sep) (cs : List α) :
    uptoLast sep (cs ++ [c]) = uptoLast sep cs := by
  simp [uptoLast, hc]

/-- Characters of a segment at the end are passed over. -/
theorem uptoLast_append {sep : α} (cs : List α) {name : List α} (hname : sep ∉ name) :
    uptoLast sep (cs ++ name) = uptoLast sep cs := by
  induction name generalizing cs with
  | nil => rw [List.append_nil]
  | cons c name ih =>
      obtain ⟨hc, hname⟩ := not_or.mp (fun h => hname (List.mem_cons.mpr h))
      rw [List.append_cons, ih _ hname, uptoLast_concat_of_ne (Ne.symm hc)]

/-- **The last separator of a path.**  It is the one in front of the open
segment. -/
theorem uptoLast_text {sep : α} (stack : List (List α)) {cur : List α} (hcur : sep ∉ cur) :
    uptoLast sep (text sep stack cur) = some (text sep stack []) := by
  have hends : ∃ front, text sep stack [] = front ++ [sep] := by
    cases stack with
    | nil => exact ⟨[], rfl⟩
    | cons name stack => exact ⟨text sep stack name, by rw [text_cons, text_append]⟩
  obtain ⟨front, hfront⟩ := hends
  rw [← List.nil_append cur, ← text_append, uptoLast_append _ hcur, hfront, uptoLast_concat_sep]

end PathSegments
