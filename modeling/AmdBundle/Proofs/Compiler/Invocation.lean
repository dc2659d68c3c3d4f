import AmdBundle.Compiler.Invocation

/-!
# What the words of an invocation say

A path may be spelled like a flag, so a flag is told from a path by its place alone: the last word
says whether the compiler goes on, and the number of words then says what kind the input is.

* `getLast?_arguments`, `length_arguments` : the last word and the number of words;
* `arguments_inj` : different options are never asked for in the same words;
* `wordBehind`, `wordBehind_outFile` : the word behind the first flag of a name.
-/

set_option autoImplicit false

namespace AmdBundle

theorem Target.name_inj {a b : Target} (h : a.name.toList = b.name.toList) : a = b := by
  revert h
  cases a <;> cases b <;> decide

namespace CompilerOptions

/-- The words between the flags for the kind of the input and for going on. -/
def mainWords (o : CompilerOptions) : List Text :=
  [o.inFile, "--outFile".toList, o.outFile, "--target".toList, o.target.name.toList,
    "--module".toList, "amd".toList]

theorem arguments_eq (o : CompilerOptions) :
    o.arguments = (if o.kind = .project then ["--project".toList] else []) ++ o.mainWords ++
      if o.watch then ["--watch".toList] else [] := rfl

theorem getLast?_arguments (o : CompilerOptions) :
    o.arguments.getLast? = some (if o.watch then "--watch".toList else "amd".toList) := by
  rw [arguments_eq, List.getLast?_append]
  cases o.watch with
  | true => rfl
  | false => rw [List.getLast?_append]; rfl

theorem length_arguments (o : CompilerOptions) :
    o.arguments.length = (if o.kind = .project then 1 else 0) + 7 + o.watch.toNat := by
  rw [arguments_eq, List.length_append, List.length_append]
  cases o.kind <;> cases o.watch <;> rfl

theorem mainWords_inj {a b : CompilerOptions} (h : a.mainWords = b.mainWords) :
    a.inFile = b.inFile ∧ a.outFile = b.outFile ∧ a.target = b.target := by
  obtain ⟨hin, h⟩ := List.cons.inj h
  obtain ⟨-, h⟩ := List.cons.inj h
  obtain ⟨hout, h⟩ := List.cons.inj h
  obtain ⟨-, h⟩ := List.cons.inj h
  exact ⟨hin, hout, Target.name_inj (List.cons.inj h).1⟩

/-- **Different options are never asked for in the same words.** -/
theorem arguments_inj {a b : CompilerOptions} (h : a.arguments = b.arguments) : a = b := by
  have hwatch : a.watch = b.watch := by
    have hlast := congrArg List.getLast? h
    rw [getLast?_arguments, getLast?_arguments] at hlast
    revert hlast
    cases a.watch <;> cases b.watch <;> decide
  have hkind : a.kind = b.kind := by
    have hlength := congrArg List.length h
    rw [length_arguments, length_arguments, hwatch] at hlength
    revert hlength
    cases a.kind <;> cases b.kind <;> simp
  -- Both flags are the same on either side, and what stands between them has its places fixed.
  rw [arguments_eq, arguments_eq, hwatch, hkind] at h
  obtain ⟨hin, hout, htarget⟩ := mainWords_inj (List.append_cancel_left (List.append_cancel_right h))
  obtain ⟨kind, target, inFile, outFile, watch⟩ := a
  subst hwatch hkind hin hout htarget
  rfl

/-! ## Words behind flags -/

/-- The word behind the first flag of that name. -/
def wordBehind (flag : Text) : List Text → Option Text
  | [] => none
  | word :: rest => if word = flag then rest.head? else wordBehind flag rest

/-- The output is named behind its flag, unless the input is spelled like that flag. -/
theorem wordBehind_outFile (o : CompilerOptions) (hin : o.inFile ≠ "--outFile".toList) :
    wordBehind "--outFile".toList o.arguments = some o.outFile := by
  have hmain : ∀ more, wordBehind "--outFile".toList (o.mainWords ++ more) = some o.outFile := by
    intro more
    rw [mainWords, List.cons_append, wordBehind, if_neg hin, List.cons_append, wordBehind, if_pos rfl]
    rfl
  rw [arguments_eq, List.append_assoc]
  split
  · rw [List.singleton_append, wordBehind, if_neg (by decide), hmain]
  · exact hmain _

end CompilerOptions

end AmdBundle
