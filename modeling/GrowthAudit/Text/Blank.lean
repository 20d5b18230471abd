/-!
# White space

The white space of Unicode: the separators of the space, line and paragraph classes together with
the control characters that act as separators.  `trim` drops it at both ends of a text.

* `isBlank_of_mem_head?_trim`, `isBlank_of_mem_getLast?_trim`: what is left has none around it.
* `trim_eq_self`: a text that has none around it stays as it is.
-/

namespace GrowthAudit.Text

/-- The code points that count as white space. -/
def blankCodes : List Nat :=
  [0x09, 0x0A, 0x0B, 0x0C, 0x0D, 0x1C, 0x1D, 0x1E, 0x1F, 0x20, 0x85, 0xA0, 0x1680,
   0x2000, 0x2001, 0x2002, 0x2003, 0x2004, 0x2005, 0x2006, 0x2007, 0x2008, 0x2009, 0x200A,
   0x2028, 0x2029, 0x202F, 0x205F, 0x3000]

def isBlank (c : Char) : Bool := blankCodes.contains c.toNat

def trimLeft (cs : List Char) : List Char := cs.dropWhile isBlank

def trimRight (cs : List Char) : List Char := (cs.reverse.dropWhile isBlank).reverse

/-- Drops the white space at both ends. -/
def trim (cs : List Char) : List Char := trimRight (trimLeft cs)

variable {p : Char → Bool} {c : Char} {cs : List Char}

theorem eq_false_of_mem_head?_dropWhile (h : c ∈ (cs.dropWhile p).head?) : p c = false := by
  have hstop := List.head?_dropWhile_not p cs
  rw [Option.mem_def.mp h] at hstop
  exact hstop

theorem isPrefix_trimRight (cs : List Char) : trimRight cs <+: cs := by
  rw [trimRight, ← List.reverse_suffix, List.reverse_reverse]
  exact List.dropWhile_suffix isBlank

theorem trim_sublist (cs : List Char) : (trim cs).Sublist cs :=
  (isPrefix_trimRight _).sublist.trans (List.dropWhile_suffix isBlank).sublist

/-- What is left starts with no white space. -/
theorem isBlank_of_mem_head?_trim (h : c ∈ (trim cs).head?) : isBlank c = false := by
  obtain ⟨rest, hrest⟩ := isPrefix_trimRight (trimLeft cs)
  have hfront : c ∈ (trimLeft cs).head? := by
    rw [trim] at h
    rw [← hrest, Option.mem_def, List.head?_append, Option.mem_def.mp h, Option.some_or]
  exact eq_false_of_mem_head?_dropWhile hfront

/-- What is left ends with no white space. -/
theorem isBlank_of_mem_getLast?_trim (h : c ∈ (trim cs).getLast?) : isBlank c = false := by
  rw [trim, trimRight, List.getLast?_reverse] at h
  exact eq_false_of_mem_head?_dropWhile h

theorem trimLeft_eq_self (h : ∀ c ∈ cs.head?, isBlank c = false) : trimLeft cs = cs := by
  cases cs with
  | nil => rfl
  | cons c cs => rw [trimLeft, List.dropWhile_cons, h c rfl, if_neg (by decide)]

theorem trimRight_eq_self (h : ∀ c ∈ cs.getLast?, isBlank c = false) : trimRight cs = cs := by
  have hreverse : trimLeft cs.reverse = cs.reverse :=
    trimLeft_eq_self (List.head?_reverse ▸ h)
  rw [trimLeft] at hreverse
  rw [trimRight, hreverse, List.reverse_reverse]

/-- A text without white space around it stays as it is. -/
theorem trim_eq_self (hfront : ∀ c ∈ cs.head?, isBlank c = false)
    (hback : ∀ c ∈ cs.getLast?, isBlank c = false) : trim cs = cs := by
  rw [trim, trimLeft_eq_self hfront, trimRight_eq_self hback]

end GrowthAudit.Text
