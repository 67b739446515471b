import UdpForwarder.Forwarder
import Mathlib.Data.List.TakeWhile

/-! `rlib::opt_parser`: options are found in the argument vector and erased from it. -/

namespace UdpForwarder.OptParser

open Forwarder

/-- The predicate of `find_if`: the name itself, or the name followed by an equal sign. -/
def isArg (argName ele : Bytes) : Bool :=
  ele = argName || (argName ++ [0x3D]).isPrefixOf ele

/-- `getBoolArg` of one name: whether it was there, and the vector without it. -/
def getBoolArg (argName : Bytes) (args : List Bytes) : Bool × List Bytes :=
  if argName ∈ args then (true, args.erase argName) else (false, args)

/-- `getBoolArg(longName) || getBoolArg(shortName)` -/
def getBoolArgs (longName shortName : Bytes) (args : List Bytes) : Bool × List Bytes :=
  let (found, rest) := getBoolArg longName args
  if found then (true, rest) else getBoolArg shortName rest

def notProvided (argName : Bytes) : Exn :=
  .invalidArgument ("Required argument '" ++ shown argName ++ "' not provided.")

/-- `getValueArg`: the value of the first option of that name, and the vector without the option.
`pos` is where the part that `dropWhile` leaves begins. -/
def getValueArg (argName : Bytes) (required : Bool) (dflt : Bytes) (args : List Bytes) :
    Except Exn (Bytes × List Bytes) :=
  let front := args.takeWhile (!isArg argName ·)
  match args.dropWhile (!isArg argName ·) with
  | [] => if required then .error (notProvided argName) else .ok (dflt, args)
  | ele :: back =>
    if ele = argName then
      match back with
      -- the exception leaves through the deferred `args.erase(pos + 1)`, which erases the end
      | [] => .error .undefinedBehaviour
      | value :: back => .ok (value, front ++ back)
    else .ok (ele.drop (argName.length + 1), front ++ back)

variable {argName : Bytes}

theorem getValueArg_shorter {required : Bool} {dflt value : Bytes} {args rest : List Bytes}
    (found : getValueArg argName required dflt args = .ok (value, rest)) (other : value ≠ dflt) :
    rest.length < args.length := by
  have whole := congrArg List.length (List.takeWhile_append_dropWhile
    (p := (!isArg argName ·)) (l := args))
  rw [List.length_append] at whole
  rw [getValueArg] at found
  split at found
  · split at found
    · cases found
    · simp only [Except.ok.injEq, Prod.mk.injEq] at found
      exact absurd found.1.symm other
  · rename_i ele back after
    rw [after, List.length_cons] at whole
    split at found
    · split at found
      · cases found
      · simp only [Except.ok.injEq, Prod.mk.injEq] at found
        rw [← found.2, List.length_append]
        simp only [List.length_cons] at whole
        omega
    · simp only [Except.ok.injEq, Prod.mk.injEq] at found
      rw [← found.2, List.length_append]
      omega

section Search

variable {front back : List Bytes} (required : Bool) (dflt : Bytes)

theorem getValueArg_absent {args : List Bytes} (absent : ∀ ele ∈ args, isArg argName ele = false) :
    getValueArg argName required dflt args =
      if required then .error (notProvided argName) else .ok (dflt, args) := by
  have none : args.dropWhile (!isArg argName ·) = [] := by
    apply List.dropWhile_eq_nil_iff.mpr
    intro ele member
    simp [absent ele member]
  rw [getValueArg, none]

private theorem found_at (back : List Bytes)
    (absent : ∀ ele ∈ front, isArg argName ele = false) {ele : Bytes}
    (option : isArg argName ele = true) :
    (front ++ ele :: back).takeWhile (!isArg argName ·) = front ∧
      (front ++ ele :: back).dropWhile (!isArg argName ·) = ele :: back := by
  have passed : ∀ ele ∈ front, (!isArg argName ele) = true := by
    intro ele member
    simp [absent ele member]
  constructor
  · rw [List.takeWhile_append_of_pos passed]
    simp [option]
  · rw [List.dropWhile_append_of_pos passed]
    simp [option]

theorem getValueArg_name_value (absent : ∀ ele ∈ front, isArg argName ele = false)
    (value : Bytes) :
    getValueArg argName required dflt (front ++ argName :: value :: back) =
      .ok (value, front ++ back) := by
  have option : isArg argName argName = true := by simp [isArg]
  obtain ⟨before, after⟩ := found_at (value :: back) absent option
  simp only [getValueArg, before, after, if_true]

theorem getValueArg_equalSym (absent : ∀ ele ∈ front, isArg argName ele = false)
    (value : Bytes) :
    getValueArg argName required dflt (front ++ (argName ++ 0x3D :: value) :: back) =
      .ok (value, front ++ back) := by
  have option : isArg argName (argName ++ 0x3D :: value) = true := by
    have begins : (argName ++ [0x3D]).isPrefixOf (argName ++ 0x3D :: value) = true :=
      List.isPrefixOf_iff_prefix.mpr ⟨value, by simp⟩
    rw [isArg, begins, Bool.or_true]
  have longer : argName ++ 0x3D :: value ≠ argName := by
    intro same
    have sizes := congrArg List.length same
    simp at sizes
  have rest : (argName ++ 0x3D :: value).drop (argName.length + 1) = value := by
    rw [← List.drop_drop, List.drop_left' rfl]
    rfl
  obtain ⟨before, after⟩ := found_at back absent option
  simp only [getValueArg, before, after, longer, if_false, rest]

end Search

end UdpForwarder.OptParser
