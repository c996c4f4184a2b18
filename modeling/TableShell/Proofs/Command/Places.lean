import Mathlib.Tactic.Common
import TableShell.Command.Reader

/-!
# Reading commands by place

The form of a command says at which place each of its words stands. Here commands are read by
looking the words up at their places, which fails with `none` if there is no such word. A look-up
never fails, since the number of words is checked before any of them is looked at, and the result
is that of `Command.ofWords` (`ofWordsByPlace?_eq_some`).
-/

namespace TableShell.Command

open Text (unwords isCasingOf)

/-- The words from a place on; the place may lie behind the last word but not farther. -/
def wordsFrom? (ws : List String) (place : Nat) : Option (List String) :=
  if place ≤ ws.length then some (ws.drop place) else none

theorem wordsFrom?_eq_some {ws : List String} {place : Nat} (h : place ≤ ws.length) :
    wordsFrom? ws place = some (ws.drop place) :=
  if_pos h

/-- A search. The fields before a scope are those at the places from one on, if there are any. -/
def getByPlace? (ws : List String) : Option Command :=
  if ws.any scopeMarkers.contains then do
    let scopeStart := ws.length - 2
    let scope ← wordsFrom? ws scopeStart
    return .get ((ws.take scopeStart).drop 1) (unwords scope)
  else do
    let fields ← wordsFrom? ws 1
    return .get fields Scope.allWord

/-- A command with a separator at one place and a scope from another place on. The marker is
looked at only if the separator is not one. -/
def scopedByPlace? (verb : String) (separatorPlace scopePlace : Nat)
    (command? : List String → String → Option Command) (ws : List String) :
    Option (Except CommandError Command) :=
  if ws.length ≤ scopePlace then
    some (.error (.missingScope verb))
  else do
    let separator ← ws[separatorPlace]?
    let accepted ←
      if isSeparator separator then pure true
      else do
        let marker ← ws[scopePlace]?
        pure (isMarker marker)
    if accepted then
      let scope ← wordsFrom? ws scopePlace
      let command ← command? ws (unwords scope)
      return .ok command
    else
      return .error (.missingScope verb)

/-- An update: the old values at place one and the new ones at place three. -/
def updateByPlace? : List String → Option (Except CommandError Command) :=
  scopedByPlace? "update" 2 4 fun ws scope => do
    let old ← ws[1]?
    let new ← ws[3]?
    return .update old new scope

/-- A copy: the key column at place one and the keys at the places two and four. -/
def copyByPlace? : List String → Option (Except CommandError Command) :=
  scopedByPlace? "copy" 3 5 fun ws scope => do
    let keyColumn ← ws[1]?
    let source ← ws[2]?
    let target ← ws[4]?
    return .copy keyColumn source target scope

/-- The command that a list of words stands for, each word being looked up at its place. -/
def ofWordsByPlace? (ws : List String) : Option (Except CommandError Command) :=
  match ws[0]? with
  | none => some (.ok .blank)
  | some verb =>
    if ws.any exitWords.contains then some (.ok .exit)
    else if ws.contains cleanWord then some (.ok .clean)
    else if ws.contains helpWord then some (.ok .help)
    else if isCasingOf "get" verb then (getByPlace? ws).map .ok
    else if isCasingOf "update" verb then updateByPlace? ws
    else if isCasingOf "copy" verb then copyByPlace? ws
    else some (.error (.unrecognized verb))

theorem getByPlace?_eq_some {ws : List String} (nonempty : ws ≠ []) :
    getByPlace? ws = some (getOfWords ws) := by
  -- The verb keeps the place one from lying behind the end.
  have verb : 1 ≤ ws.length := List.length_pos_iff.2 nonempty
  rw [getByPlace?, getOfWords]
  split
  · have scope := wordsFrom?_eq_some (Nat.sub_le ws.length 2)
    have fields : ws.dropLast.dropLast = ws.take (ws.length - 2) := by
      rw [List.dropLast_eq_take, List.dropLast_eq_take, List.length_take, List.take_take]
      congr 1
      omega
    have length : (ws.take (ws.length - 2)).length = ws.length - 2 := by
      rw [List.length_take]
      omega
    simp only [scope, fields, length]
    rfl
  · rw [wordsFrom?_eq_some verb]
    rfl

theorem updateByPlace?_eq_some (ws : List String) :
    updateByPlace? ws = some (updateOfWords ws) := by
  match ws with
  | [] | [_] | [_, _] | [_, _, _] | [_, _, _, _] => rfl
  | _ :: old :: separator :: new :: marker :: files =>
    cases separated : isSeparator separator <;> cases marked : isMarker marker <;>
      simp [updateByPlace?, scopedByPlace?, updateOfWords, wordsFrom?, separated, marked]

theorem copyByPlace?_eq_some (ws : List String) : copyByPlace? ws = some (copyOfWords ws) := by
  match ws with
  | [] | [_] | [_, _] | [_, _, _] | [_, _, _, _] | [_, _, _, _, _] => rfl
  | _ :: keyColumn :: source :: separator :: target :: marker :: files =>
    cases separated : isSeparator separator <;> cases marked : isMarker marker <;>
      simp [copyByPlace?, scopedByPlace?, copyOfWords, wordsFrom?, separated, marked]

/-- No look-up fails, and the command is the one that `ofWords` reads. -/
theorem ofWordsByPlace?_eq_some (ws : List String) :
    ofWordsByPlace? ws = some (ofWords ws) := by
  cases ws with
  | nil => rfl
  | cons verb rest =>
    simp only [ofWordsByPlace?, ofWords, List.getElem?_cons_zero,
      getByPlace?_eq_some (List.cons_ne_nil verb rest), updateByPlace?_eq_some,
      copyByPlace?_eq_some, Option.map_some]
    split_ifs <;> rfl

end TableShell.Command
