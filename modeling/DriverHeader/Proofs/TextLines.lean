import DriverHeader.Header

/-! # Texts as lists of lines

A text that is written line by line falls back into its lines when it is cut at the line feeds,
as long as no line holds one itself.
-/
namespace DriverHeader

theorem takeWhile_ne_append {α : Type} [DecidableEq α] {a : α} {front : List α} (h : a ∉ front)
    (rest : List α) : (front ++ a :: rest).takeWhile (· ≠ a) = front := by
  have hall : ∀ b ∈ front, decide (b ≠ a) = true := by
    intro b hb
    have hne : b ≠ a := fun heq => h (heq ▸ hb)
    simp [hne]
  rw [List.takeWhile_append_of_pos hall]
  simp

theorem append_cons_inj {α : Type} [DecidableEq α] {a : α} {xs xs' ys ys' : List α} (hxs : a ∉ xs)
    (hxs' : a ∉ xs') (h : xs ++ a :: ys = xs' ++ a :: ys') : xs = xs' ∧ ys = ys' := by
  have hfront := congrArg (List.takeWhile (· ≠ a)) h
  rw [takeWhile_ne_append hxs, takeWhile_ne_append hxs'] at hfront
  subst hfront
  exact ⟨rfl, (List.cons.inj (List.append_cancel_left h)).2⟩

theorem splitOn_flatMap_cons {c : Char} {t : Text} {pieces : List Text} (ht : c ∉ t)
    (hpieces : ∀ piece ∈ pieces, c ∉ piece) :
    (t ++ pieces.flatMap (c :: ·)).splitOn c = t :: pieces := by
  induction pieces generalizing t with
  | nil => rw [List.flatMap_nil, List.append_nil, List.splitOn_eq_singleton ht]
  | cons piece pieces ih =>
    rw [List.flatMap_cons, List.cons_append, List.splitOn_append_cons_self_of_not_mem ht,
      ih (hpieces piece List.mem_cons_self) fun p hp => hpieces p (List.mem_cons_of_mem _ hp)]

theorem splitOn_line (t : Text) : (line t).splitOn '\n' = t.splitOn '\n' ++ [[]] := by
  exact List.splitOn_append_cons_self t []

theorem splitOn_line_append {l : Text} (h : '\n' ∉ l) (rest : Text) :
    (line l ++ rest).splitOn '\n' = l :: rest.splitOn '\n' := by
  have htext : line l ++ rest = l ++ '\n' :: rest := by simp [line]
  rw [htext, List.splitOn_append_cons_self_of_not_mem h]

theorem splitOn_lines_append {ls : List Text} (h : ∀ l ∈ ls, '\n' ∉ l) (rest : Text) :
    (ls.flatMap line ++ rest).splitOn '\n' = ls ++ rest.splitOn '\n' := by
  induction ls with
  | nil => rfl
  | cons l ls ih =>
    have hrest := ih (fun l hl => h l (List.mem_cons_of_mem _ hl))
    rw [List.flatMap_cons, List.append_assoc, splitOn_line_append (h l List.mem_cons_self), hrest]
    rfl

theorem splitOn_lines {ls : List Text} (h : ∀ l ∈ ls, '\n' ∉ l) :
    (ls.flatMap line).splitOn '\n' = ls ++ [[]] := by
  simpa using splitOn_lines_append h []

def blockEnd : Text := "\x7d;"

/-- The lines from the last one that reads `opening` to the next that closes a declaration. -/
def block (opening t : Text) : List Text :=
  ((t.splitOn '\n').reverse.takeWhile (· ≠ opening)).reverse.takeWhile (· ≠ blockEnd)

/-- A block starts a line and is the last one with its opening. -/
theorem block_lines {before opening : Text} {front body rest : List Text}
    (hplain : ∀ l ∈ opening :: (body ++ blockEnd :: rest), '\n' ∉ l)
    (hopening : opening ∉ body ++ blockEnd :: rest) (hne : opening ≠ [])
    (hclosing : blockEnd ∉ body) :
    block opening (before
      ++ (front ++ [] :: opening :: (body ++ blockEnd :: rest)).flatMap line) = body := by
  have hsplit : (before
        ++ (front ++ [] :: opening :: (body ++ blockEnd :: rest)).flatMap line).splitOn '\n' =
      (before ++ front.flatMap line).splitOn '\n'
        ++ opening :: (body ++ blockEnd :: rest ++ [[]]) := by
    have htext : before ++ (front ++ [] :: opening :: (body ++ blockEnd :: rest)).flatMap line =
        (before ++ front.flatMap line)
          ++ '\n' :: (opening :: (body ++ blockEnd :: rest)).flatMap line := by
      rw [List.flatMap_append, List.flatMap_cons, List.append_assoc]
      rfl
    rw [htext, List.splitOn_append_cons_self, splitOn_lines hplain]
    rfl
  have hafter : opening ∉ (body ++ blockEnd :: rest ++ [[]]).reverse := by
    rw [List.mem_reverse, List.mem_append, List.mem_singleton]
    exact not_or.mpr ⟨hopening, hne⟩
  rw [block, hsplit, List.reverse_append, List.reverse_cons, List.append_assoc,
    List.singleton_append, takeWhile_ne_append hafter, List.reverse_reverse, List.append_assoc,
    List.cons_append, takeWhile_ne_append hclosing]

end DriverHeader
