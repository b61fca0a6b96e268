import IndentLisp.Proofs.Program.Literals
import IndentLisp.Proofs.Reader.LineEnding

/-!
# The line ends of a program

A program whose lines end in CR LF or in CR is parsed as if they ended in line feeds. Only the line
ends inside of its literals stay what they are.
-/

set_option autoImplicit false

namespace IndentLisp

open Reader

/-- The line ends that begin with a carriage return. -/
def IsReturn (ending : List Char) : Prop := ending = ['\r', '\n'] ∨ ending = ['\r']

section

variable {ending text : List Char}

@[simp] theorem withLineEnds_nil : withLineEnds ending [] = [] := rfl

@[simp] theorem withLineEnds_feed :
    withLineEnds ending ('\n' :: text) = ending ++ withLineEnds ending text := rfl

private theorem withLineEnds_cons {c : Char} (other : c ≠ '\n') :
    withLineEnds ending (c :: text) = c :: withLineEnds ending text := by
  simp [withLineEnds, other]

private theorem withLineEnds_of_not_mem (noFeed : '\n' ∉ text) :
    withLineEnds ending text = text := by
  induction text with
  | nil => rfl
  | cons c text ih =>
      obtain ⟨other, noRest⟩ := not_or.mp (mt List.mem_cons.mpr noFeed)
      rw [withLineEnds_cons (Ne.symm other), ih noRest]

private theorem IsReturn.head?_withLineEnds (isReturn : IsReturn ending) :
    (withLineEnds ending text).head? ≠ some '\n' := by
  cases text with
  | nil => simp
  | cons c text =>
      by_cases isFeed : c = '\n'
      · subst isFeed
        obtain rfl | rfl := isReturn <;> simp
      · simp [withLineEnds_cons isFeed, isFeed]

private theorem IsReturn.withLineEnds_ne_nil (isReturn : IsReturn ending) (some : text ≠ []) :
    withLineEnds ending text ≠ [] := by
  obtain ⟨c, text, rfl⟩ := List.exists_cons_of_ne_nil some
  by_cases isFeed : c = '\n'
  · subst isFeed
    obtain rfl | rfl := isReturn <;> simp
  · simp [withLineEnds_cons isFeed]

/-! ## Literals -/

namespace Lexer

private theorem closeLiteral?_return (isReturn : IsReturn ending) (rest : List Char) :
    closeLiteral? (ending ++ rest) = (closeLiteral? rest).map (Prod.map (ending ++ ·) id) := by
  obtain rfl | rfl := isReturn
  · rw [List.cons_append, List.cons_append, List.nil_append,
      closeLiteral?_raw (by decide) (by decide), closeLiteral?_raw (by decide) (by decide),
      Option.map_map]
    rfl
  · exact closeLiteral?_raw (by decide) (by decide) rest

private theorem closeLiteral?_escape_return (isReturn : IsReturn ending) (rest : List Char) :
    closeLiteral? ('\\' :: (ending ++ rest)) =
      (closeLiteral? rest).map (Prod.map ('\\' :: ending ++ ·) id) := by
  obtain rfl | rfl := isReturn
  · rw [List.cons_append, List.cons_append, List.nil_append, closeLiteral?,
      closeLiteral?_raw (by decide) (by decide), Option.map_map]
    rfl
  · rfl

private theorem closeLiteral?_withLineEnds (isReturn : IsReturn ending) (text : List Char) :
    closeLiteral? (withLineEnds ending text) =
      (closeLiteral? text).map (Prod.map (withLineEnds ending) (withLineEnds ending)) := by
  have keeps (start start' : List Char)
      (same : ∀ more, withLineEnds ending (start ++ more) = start' ++ withLineEnds ending more)
      (rest : Option (List Char × List Char)) :
      (rest.map (Prod.map (withLineEnds ending) (withLineEnds ending))).map
          (Prod.map (start' ++ ·) id) =
        (rest.map (Prod.map (start ++ ·) id)).map
          (Prod.map (withLineEnds ending) (withLineEnds ending)) := by
    cases rest with
    | none => rfl
    | some parts => exact congrArg some (Prod.ext (same parts.1).symm rfl)
  fun_induction closeLiteral? text with
  | case1 | case2 => rfl
  | case3 c rest ih =>
      rw [withLineEnds_cons (by decide)]
      by_cases isFeed : c = '\n'
      · subst isFeed
        rw [withLineEnds_feed, closeLiteral?_escape_return isReturn, ih]
        exact keeps ['\\', '\n'] _ (fun _ => rfl) _
      · rw [withLineEnds_cons isFeed, closeLiteral?, ih]
        exact keeps ['\\', c] _ (fun more => by simp [withLineEnds_cons, isFeed]) _
  | case4 c rest noQuote noEscape ih =>
      by_cases isFeed : c = '\n'
      · subst isFeed
        rw [withLineEnds_feed, closeLiteral?_return isReturn, ih]
        exact keeps ['\n'] _ (fun _ => rfl) _
      · by_cases isEscape : c = '\\'
        · cases rest with
          | nil => subst isEscape; rfl
          | cons d rest => exact (noEscape d rest isEscape rfl).elim
        · rw [withLineEnds_cons isFeed, closeLiteral?_raw noQuote isEscape, ih]
          exact keeps [c] [c] (fun more => by simp [withLineEnds_cons, isFeed]) _

private theorem dropWhile_withLineEnds (isReturn : IsReturn ending) (text : List Char) :
    (withLineEnds ending text).dropWhile (fun c => !isLineBreak c) =
      withLineEnds ending (text.dropWhile fun c => !isLineBreak c) := by
  induction text with
  | nil => rfl
  | cons c text ih =>
      by_cases isFeed : c = '\n'
      · subst isFeed
        obtain rfl | rfl := isReturn <;> rfl
      · rw [withLineEnds_cons isFeed, List.dropWhile_cons, List.dropWhile_cons]
        split
        · exact ih
        · exact (withLineEnds_cons isFeed).symm

private theorem literals_withLineEnds (isReturn : IsReturn ending) (text : List Char) :
    literals (withLineEnds ending text) = (literals text).map (withLineEnds ending) := by
  have plain : ∀ c ∈ ending, c ≠ '\'' ∧ c ≠ ';' := by
    obtain rfl | rfl := isReturn <;> simp
  fun_induction literals text with
  | case1 => rw [withLineEnds_nil, literals]; rfl
  | case2 rest ih =>
      rw [withLineEnds_cons (by decide), literals, dropWhile_withLineEnds isReturn, ih]
  | case3 rest inside after closed ih =>
      have closed' := closeLiteral?_withLineEnds isReturn rest
      rw [closed] at closed'
      rw [withLineEnds_cons (by decide), literals_of_closed closed', ih]
      rfl
  | case4 rest opened =>
      have opened' := closeLiteral?_withLineEnds isReturn rest
      rw [opened] at opened'
      rw [withLineEnds_cons (by decide), literals_of_open opened']
      rfl
  | case5 c rest noComment noQuote ih =>
      by_cases isFeed : c = '\n'
      · subst isFeed
        rw [withLineEnds_feed, literals_append_plain plain, ih]
      · rw [withLineEnds_cons isFeed, literals_cons noQuote noComment, ih]

private theorem closeLiteral?_append_feed (text : List Char) :
    closeLiteral? (text ++ ['\n']) =
      (closeLiteral? text).map (Prod.map id (· ++ ['\n'])) := by
  fun_induction closeLiteral? text with
  | case1 | case2 => rfl
  | case3 c rest ih =>
      rw [List.cons_append, List.cons_append, closeLiteral?, ih, Option.map_map, Option.map_map]
      rfl
  | case4 c rest noQuote noEscape ih =>
      by_cases isEscape : c = '\\'
      · cases rest with
        | nil => subst isEscape; rfl
        | cons d rest => exact (noEscape d rest isEscape rfl).elim
      · rw [List.cons_append, closeLiteral?_raw noQuote isEscape, ih, Option.map_map,
          Option.map_map]
        rfl

/-- A line feed at the end changes nothing, even in an open literal or a comment. -/
private theorem literals_append_feed (text : List Char) :
    literals (text ++ ['\n']) = literals text := by
  fun_induction literals text with
  | case1 =>
      rw [List.nil_append, literals_cons (by decide) (by decide), literals]
  | case2 rest ih =>
      rw [List.cons_append, literals, List.dropWhile_append]
      split
      · next none =>
        rw [List.isEmpty_iff.mp none] at ih ⊢
        exact ih
      · exact ih
  | case3 rest inside after closed ih =>
      have closed' := closeLiteral?_append_feed rest
      rw [closed] at closed'
      rw [List.cons_append, literals_of_closed closed', ih]
      rfl
  | case4 rest opened =>
      have opened' := closeLiteral?_append_feed rest
      rw [opened] at opened'
      rw [List.cons_append, literals_of_open opened']
  | case5 c rest noComment noQuote ih => rw [List.cons_append, literals_cons noQuote noComment, ih]

private theorem literals_terminated (text : List Char) :
    literals (terminated text) = literals text := by
  rw [terminated]
  split
  · rfl
  · exact literals_append_feed text

end Lexer

end

/-! ## Two readings -/

namespace Reader

variable {lines line : Int} {ending text : List Char}

/-- A text is respelt, and so is the line feed that is added to it. -/
private theorem respelt_terminated (isReturn : IsReturn ending) (noReturn : '\r' ∉ text)
    (count : line + text.count '\n' = lines + 1) :
    Respelt lines line (terminated text) (terminated (withLineEnds ending text)) := by
  induction text generalizing line with
  | nil => exact .last (by simp at count; omega)
  | cons c text ih =>
      obtain ⟨notReturn, noRest⟩ := not_or.mp (mt List.mem_cons.mpr noReturn)
      by_cases isFeed : c = '\n'
      · subst isFeed
        rw [List.count_cons_self] at count
        have early : line ≤ lines := by omega
        cases text with
        | nil =>
            obtain rfl | rfl := isReturn
            · exact .pair early .nil
            · exact .pair early .nil
        | cons d text =>
            have below : Respelt lines (line + 1) (terminated (d :: text))
                (terminated (withLineEnds ending (d :: text))) := ih noRest (by omega)
            have filled : d :: text ≠ [] := List.cons_ne_nil d text
            have more := isReturn.withLineEnds_ne_nil filled
            have single : (terminated (withLineEnds ending (d :: text))).head? ≠ some '\n' := by
              rw [head?_terminated more]
              exact isReturn.head?_withLineEnds
            have first : terminated ('\n' :: d :: text) = '\n' :: terminated (d :: text) :=
              @terminated_append ['\n'] (d :: text) filled
            rw [first, withLineEnds_feed, terminated_append more]
            obtain rfl | rfl := isReturn
            · exact .pair early below
            · exact .alone early single below
      · rw [List.count_cons_of_ne isFeed] at count
        have inside : isLineBreak c = false := by simp [isLineBreak, isFeed, Ne.symm notReturn]
        rw [withLineEnds_cons isFeed, terminated_cons isFeed, terminated_cons isFeed]
        exact .inside inside (ih noRest count)

private theorem SameCause.atState_eq {failure failure' : Failure} {stop stop' : State}
    (same : SameCause lines stop.line failure failure') (line : stop'.line = stop.line) :
    failure'.atState stop' = (failure.atState stop).showReturns lines := by
  cases same with
  | escape early => simp [Failure.atState, ParseError.showReturns, line, early]
  | same other =>
      cases failure with
      | numeralTooLong => rfl
      | problem cause =>
          rw [Failure.atState, Failure.atState, line]
          by_cases escape : cause = .badEscape (some '\n')
          · subst escape
            have late : ¬stop.line ≤ lines := fun early => other early rfl
            rw [ParseError.showReturns, if_neg late]
          · rw [ParseError.showReturns]
            rintro _ ⟨⟩
            exact escape rfl

private theorem parse_respells (nesting : Nat) {source source' : String}
    (step : Respells lines (.start source) (.start source')) :
    (∃ tree tree', parse nesting source = .ok tree ∧ parse nesting source' = .ok tree' ∧
      tree'.withoutStrings = tree.withoutStrings) ∨
    ∃ refusal, parse nesting source = .error refusal ∧
      parse nesting source' = .error (refusal.showReturns lines) := by
  have inStep := @Correspondence.program_inStep (respelling lines) _ _ nesting step
  rcases inStep.outcome with
    ⟨body, body', _, _, found, found', same, -⟩ | ⟨_, _, absent, -⟩ |
    ⟨failure, failure', stop, stop', failed, failed', same, line⟩
  · refine .inl ⟨body.toNode, body'.toNode, by rw [parse, found], by rw [parse, found'], ?_⟩
    rw [Body.toNode, Body.toNode, same.line]
    exact SameShape.block _ same.children
  · exact absurd absent (program_ne_absent (ended_start source) rfl _)
  · refine .inr ⟨failure.atState stop, by rw [parse, failed], ?_⟩
    rw [parse, failed']
    exact congrArg Except.error (same.atState_eq line)

end Reader

/-- A program whose lines end in CR LF or CR has the tree of the program whose lines end in line
feeds, up to the line ends inside of its literals, or it is refused like that one. Only where a line
end is escaped, its carriage return is shown; the line feed added at the end is the same in both. -/
theorem parse_withLineEnds {nesting : Nat} {source : String} {ending : List Char}
    (isReturn : IsReturn ending) (noReturn : '\r' ∉ source.toList) :
    (∃ tree tree', parse nesting source = .ok tree ∧
      parse nesting (String.ofList (withLineEnds ending source.toList)) = .ok tree' ∧
      tree'.withoutStrings = tree.withoutStrings ∧
      tree.strings = (Lexer.literals source.toList).map Lexer.denotedText ∧
      tree'.strings = (Lexer.literals source.toList).map
        (fun inside => Lexer.denotedText (withLineEnds ending inside)) ∧
      ((∀ inside ∈ Lexer.literals source.toList, '\n' ∉ inside) → tree' = tree)) ∨
    ∃ refusal, parse nesting source = .error refusal ∧
      parse nesting (String.ofList (withLineEnds ending source.toList)) =
        .error (refusal.showReturns (source.toList.count '\n')) := by
  have respelt : Respelt (source.toList.count '\n') 1 (terminated source.toList)
      (terminated (withLineEnds ending source.toList)) :=
    respelt_terminated isReturn noReturn (by omega)
  have step : Respells (source.toList.count '\n') (.start source)
      (.start (String.ofList (withLineEnds ending source.toList))) := by
    rw [State.start, State.start, String.toList_ofList]
    exact .mk (-1) respelt
  rcases parse_respells nesting step with ⟨tree, tree', parsed, parsed', shape⟩ | refused
  · have strings := strings_of_parse parsed
    have strings' := strings_of_parse parsed'
    rw [Lexer.literals_terminated] at strings
    rw [String.toList_ofList, Lexer.literals_terminated, Lexer.literals_withLineEnds isReturn,
      List.map_map] at strings'
    refine .inl ⟨tree, tree', parsed, parsed', shape, strings, strings', fun oneLine => ?_⟩
    apply Node.eq_of_strings_eq shape
    rw [strings, strings']
    refine List.map_congr_left fun inside member => ?_
    exact congrArg Lexer.denotedText (withLineEnds_of_not_mem (oneLine inside member))
  · exact .inr refused

theorem parse_withLineEnds_literal :
    (IsReturn ['\r', '\n'] ∧ '\r' ∉ "f 'a\nb'\n\tg".toList) ∧
    ∃ tree, parse 2 "f 'a\r\nb'\r\n\tg" = .ok tree ∧ tree.strings = ["a\r\nb"] := by
  have isReturn : IsReturn ['\r', '\n'] := .inl rfl
  have noReturn : '\r' ∉ "f 'a\nb'\n\tg".toList := by decide
  have literals : Lexer.literals "f 'a\nb'\n\tg".toList = [['a', '\n', 'b']] := by decide +kernel
  refine ⟨⟨isReturn, noReturn⟩, ?_⟩
  rcases @parse_withLineEnds 2 _ _ isReturn noReturn with
    ⟨_, tree, -, parsed, -, -, strings, -⟩ | ⟨_, refused, -⟩
  · rw [literals] at strings
    exact ⟨tree, parsed, strings⟩
  · have parsed : (parse 2 "f 'a\nb'\n\tg").isOk = true := by decide +kernel
    rw [refused] at parsed
    cases parsed

end IndentLisp
