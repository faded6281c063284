/-!
# Integers of fixed width

`Words.int64?` and `Words.int32?` take an integer to the machine word of the same value, if
there is one; `int64?_eq_some_iff` and `int32?_eq_some_iff` say that the word is that one.
-/

namespace ObjectEngine

namespace Words

/-- The signed word of 64 bits with a given value. -/
def int64? (n : Int) : Option Int64 :=
  if (Int64.ofInt n).toInt = n then some (Int64.ofInt n) else none

/-- The signed word of 32 bits with a given value. -/
def int32? (n : Int) : Option Int32 :=
  if (Int32.ofInt n).toInt = n then some (Int32.ofInt n) else none

theorem int64?_eq_some_iff {n : Int} {w : Int64} : int64? n = some w ↔ w.toInt = n := by
  unfold int64?
  constructor
  · intro h
    split at h
    · next hn => rw [← Option.some.inj h, hn]
    · simp at h
  · intro h
    subst h
    simp

theorem int32?_eq_some_iff {n : Int} {w : Int32} : int32? n = some w ↔ w.toInt = n := by
  unfold int32?
  constructor
  · intro h
    split at h
    · next hn => rw [← Option.some.inj h, hn]
    · simp at h
  · intro h
    subst h
    simp

end Words

end ObjectEngine
