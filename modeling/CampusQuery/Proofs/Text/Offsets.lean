import Mathlib.Data.List.Basic

/-!
Cuts of a text at byte offsets. Main statement: a cut is made exactly where a character starts or
the text ends.
-/

namespace CampusQuery

def byteLength : List Char → Nat
  | [] => 0
  | c :: cs => c.utf8Size + byteLength cs

/-- The text before and after so many bytes; none inside a character and past the end. -/
def cutBytes? : Nat → List Char → Option (List Char × List Char)
  | 0, cs => some ([], cs)
  | _ + 1, [] => none
  | n + 1, c :: cs =>
    if c.utf8Size ≤ n + 1 then
      (cutBytes? (n + 1 - c.utf8Size) cs).map fun parts => (c :: parts.1, parts.2)
    else none

/-- The text from one byte offset to another. -/
def sliceBytes? (start stop : Nat) (cs : List Char) : Option (List Char) :=
  if start ≤ stop then
    (cutBytes? start cs).bind fun outer =>
      (cutBytes? (stop - start) outer.2).map fun inner => inner.1
  else none

@[simp] theorem byteLength_nil : byteLength [] = 0 := rfl

@[simp] theorem byteLength_cons (c : Char) (cs : List Char) :
    byteLength (c :: cs) = c.utf8Size + byteLength cs := rfl

@[simp] theorem byteLength_append (cs ds : List Char) :
    byteLength (cs ++ ds) = byteLength cs + byteLength ds := by
  induction cs with
  | nil => simp
  | cons c cs ih => rw [List.cons_append, byteLength_cons, byteLength_cons, ih, Nat.add_assoc]

theorem utf8ByteSize_ofList (cs : List Char) : (String.ofList cs).utf8ByteSize = byteLength cs := by
  induction cs with
  | nil => rfl
  | cons c cs ih =>
    rw [String.ofList_cons, String.utf8ByteSize_append, ih, byteLength_cons]
    congr 1
    exact String.utf8ByteSize_singleton

theorem utf8ByteSize_eq (s : String) : s.utf8ByteSize = byteLength s.toList := by
  rw [← utf8ByteSize_ofList, String.ofList_toList]

theorem byteLength_eq_zero_iff {cs : List Char} : byteLength cs = 0 ↔ cs = [] := by
  cases cs with
  | nil => simp
  | cons c cs => simpa using Nat.ne_of_gt (Nat.add_pos_left c.utf8Size_pos _)

theorem cutBytes?_eq_some_iff {n : Nat} {cs before after : List Char} :
    cutBytes? n cs = some (before, after) ↔ cs = before ++ after ∧ byteLength before = n := by
  fun_induction cutBytes? n cs generalizing before with
  | case1 cs =>
    rw [byteLength_eq_zero_iff, Option.some.injEq, Prod.mk.injEq]
    grind
  | case2 n => cases before <;> simp
  | case3 n c cs fits ih =>
    cases before with
    | nil => simp
    | cons d before =>
      simp only [Option.map_eq_some_iff, Prod.exists, List.cons_append, List.cons.injEq,
        byteLength_cons]
      grind
  | case4 n c cs fits =>
    cases before with
    | nil => simp
    | cons d before =>
      simp only [List.cons_append, List.cons.injEq, byteLength_cons]
      grind

theorem sliceBytes?_append (before middle after : List Char) :
    sliceBytes? (byteLength before) (byteLength before + byteLength middle)
      (before ++ (middle ++ after)) = some middle := by
  have first : cutBytes? (byteLength before) (before ++ (middle ++ after)) =
      some (before, middle ++ after) := cutBytes?_eq_some_iff.2 ⟨rfl, rfl⟩
  have second : cutBytes? (byteLength middle) (middle ++ after) = some (middle, after) :=
    cutBytes?_eq_some_iff.2 ⟨rfl, rfl⟩
  simp [sliceBytes?, first, second]

end CampusQuery
