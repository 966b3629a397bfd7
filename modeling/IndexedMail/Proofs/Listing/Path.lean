import IndexedMail.Listing.Article
import IndexedMail.Listing.Group
import IndexedMail.Proofs.Text.Lines
import Mathlib.Data.List.TakeWhile

/-!
# Paths and file names taken apart

What trimming slashes, splitting off the file name and cutting at the last colon do to a text
that was put together from its parts.
-/

namespace IndexedMail.Listing

theorem trimSlashes_of_getLast? {cs : List Char} (h : cs.getLast? ≠ some '/') :
    trimSlashes cs = cs := by
  apply Text.trimEndBy_of_getLast?
  intro c hc
  rw [beq_eq_false_iff_ne]
  rintro rfl
  exact h hc

theorem trimSlashes_slash (cs : List Char) : trimSlashes (cs ++ ['/']) = trimSlashes cs := by
  simp [trimSlashes, Text.trimEndBy_append_singleton]

theorem splitPath_append {directory name : List Char} (hne : directory ≠ [])
    (hlast : directory.getLast? ≠ some '/') (hname : '/' ∉ name) :
    splitPath (directory ++ '/' :: name) = (directory, name) := by
  have hrev : (directory ++ '/' :: name).reverse =
      name.reverse ++ ('/' :: directory.reverse) := by simp
  have hplain : ∀ c ∈ name.reverse, (c != '/') = true := by
    intro c hc
    rw [bne_iff_ne]
    rintro rfl
    exact hname (List.mem_reverse.1 hc)
  have hhead : (directory ++ ['/']).all (· == '/') = false := by
    obtain ⟨last, hdirectory⟩ := Option.ne_none_iff_exists'.1
      (mt List.getLast?_eq_none_iff.1 hne)
    rw [List.all_eq_false]
    refine ⟨last, by simp [List.mem_of_getLast? hdirectory], ?_⟩
    rw [beq_iff_eq]
    rintro rfl
    exact hlast hdirectory
  simp only [splitPath, hrev]
  rw [List.takeWhile_append_of_pos hplain, List.dropWhile_append_of_pos hplain]
  simp only [List.takeWhile_cons, List.dropWhile_cons, bne_self_eq_false, Bool.false_eq_true,
    if_false, List.append_nil, List.reverse_reverse, List.reverse_cons]
  rw [hhead, trimSlashes_slash, trimSlashes_of_getLast? hlast]
  rfl

theorem dropFinalNewline_of_not_mem {cs : List Char} (h : '\n' ∉ cs) :
    dropFinalNewline cs = cs := by
  unfold dropFinalNewline
  split
  · rename_i rest heq
    exact absurd (List.mem_reverse.1 (heq ▸ List.mem_cons_self)) h
  · rfl

theorem splitLast?_append {mark : Char} {start rest : List Char} (h : mark ∉ rest) :
    splitLast? mark (start ++ mark :: rest) = some (start, rest) := by
  have hplain : ∀ c ∈ rest.reverse, (c != mark) = true := by
    intro c hc
    rw [bne_iff_ne]
    rintro rfl
    exact h (List.mem_reverse.1 hc)
  have hrev : (start ++ mark :: rest).reverse = rest.reverse ++ (mark :: start.reverse) := by simp
  simp only [splitLast?, hrev]
  rw [List.takeWhile_append_of_pos hplain, List.dropWhile_append_of_pos hplain]
  simp

end IndexedMail.Listing
