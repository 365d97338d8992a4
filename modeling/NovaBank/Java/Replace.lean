import NovaBank.Java.Split

/-!
# Removing a text from a text

`s.replace(target, "")` of `java.lang.String`: the occurrences of the target are found from left to
right and taken out. What is left may contain the target again, where two pieces meet.
-/

namespace NovaBank.Java

/-- `s.startsWith(start)`. -/
def startsWith (start s : String) : Bool := start.toList.isPrefixOf s.toList

/-- `s.replace(target, "")` for a target that is not empty. -/
def removeAll (target s : String) : String :=
  String.ofList (pieces target.toList [] 0 s.toList).flatten

/-- A text starts with what was put in front of it. -/
@[simp] theorem startsWith_append (start s : String) : startsWith start (start ++ s) = true := by
  simp [startsWith]

/-- The target at the beginning is taken out. -/
theorem removeAll_append {target : String} (htarget : target ≠ "") (s : String) :
    removeAll target (target ++ s) = removeAll target s := by
  have hlist : target.toList ≠ [] := by simpa using htarget
  rw [removeAll, removeAll, String.toList_append, pieces_separator hlist]
  rfl

/-- A text without some character of the target stays whole. -/
theorem removeAll_of_not_mem {target s : String} {c : Char} (htarget : c ∈ target.toList)
    (hs : c ∉ s.toList) : removeAll target s = s := by
  have hunbroken : Unbroken target.toList s.toList [] := by
    intro b _ hsuffix hbegins
    rw [List.append_nil] at hbegins
    exact hs (hsuffix.subset (hbegins.subset htarget))
  have hpieces := pieces_append hunbroken []
  rw [List.append_nil] at hpieces
  rw [removeAll, hpieces]
  simp [pieces]

example : removeAll "ab" "xabyabz" = "xyz" := by decide
example : removeAll "ab" "aabb" = "ab" := by decide

end NovaBank.Java
