/-!
Control sequences in text that a terminal would obey instead of showing: an escape character and an
opening bracket, then parameters, then intermediates, then one final character. Text for the user
is shown without them.
-/
namespace SchemaMigration.Text

def isBetween (first last c : Char) : Bool := first ≤ c && c ≤ last

def isParameter (c : Char) : Bool := isBetween '0' '?' c
def isIntermediate (c : Char) : Bool := isBetween ' ' '/' c
def isFinal (c : Char) : Bool := isBetween '@' '~' c

/-- How many characters the control sequence at the start of a text has; zero if there is none. -/
def sequenceLength : List Char → Nat
  | '\x1b' :: '[' :: body =>
    let parameters := body.takeWhile isParameter
    let intermediates := (body.drop parameters.length).takeWhile isIntermediate
    match body[parameters.length + intermediates.length]? with
    | some c => if isFinal c then parameters.length + intermediates.length + 3 else 0
    | none => 0
  | _ => 0

/--
Leaves out all control sequences after the first `skipped` characters, which are left out too. What
comes together around a sequence is not looked at again.
-/
def showable (skipped : Nat) : List Char → List Char
  | [] => []
  | c :: rest =>
    match skipped with
    | more + 1 => showable more rest
    | 0 =>
      match sequenceLength (c :: rest) with
      | 0 => c :: showable 0 rest
      | length + 1 => showable length rest

def withoutControls (s : String) : String := String.ofList (showable 0 s.toList)

end SchemaMigration.Text
