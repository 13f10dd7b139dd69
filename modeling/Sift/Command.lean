import Sift.Filter

/-!
# The command line

`Command.ofArguments` reads the arguments of the program, of which `filter` is the one thing to
ask for. Options may stand before the expression and after it, and the value of a long option may
follow it as an argument of its own or behind an equals sign.
-/

namespace Sift

/-- Why arguments are not understood. -/
inductive UsageError
  | noCommand
  | unknownCommand (argument : String)
  | noExpression
  | unknownOption (argument : String)
  | noValue (option : String)
  | badNumber (option value : String)
  | tooMany (argument : String)
  deriving DecidableEq, Repr

/-- What an error says. -/
def UsageError.message : UsageError → String
  | .noCommand => "usage: sift filter EXPRESSION [--input TEXT] [--max-bytes N] [--syntax-only] " ++
    "[--explain] [--invert]"
  | .unknownCommand argument => s!"unknown command: {argument}"
  | .noExpression => "an expression is required"
  | .unknownOption argument => s!"unknown option: {argument}"
  | .noValue option => s!"a value is required for {option}"
  | .badNumber option value => s!"invalid number for {option}: {value}"
  | .tooMany argument => s!"unexpected argument: {argument}"

namespace Command

/-- A request as far as it has been read. -/
structure Draft where
  expression : Option String
  input : Option String
  rule : FilterRule
  checkOnly : Bool
  explain : Bool

/-- Nothing read. -/
def Draft.start : Draft := ⟨none, none, ⟨FilterRule.usualLimit, false⟩, false, false⟩

/-- The request that has been read. -/
def Draft.request (d : Draft) : Except UsageError FilterRequest :=
  match d.expression with
  | some e => .ok ⟨e, d.input, d.rule, d.checkOnly, d.explain⟩
  | none => .error .noExpression

/-- The two parts of a long option with its value. -/
def splitOption (argument : String) : List String :=
  let cs := argument.toList
  if ['-', '-'].isPrefixOf cs && cs.contains '=' then
    [String.ofList (cs.takeWhile (· ≠ '=')), String.ofList ((cs.dropWhile (· ≠ '=')).drop 1)]
  else [argument]

/-- Reads arguments one after the other. -/
def readArguments (d : Draft) : List String → Except UsageError Draft
  | [] => .ok d
  | "--syntax-only" :: rest => readArguments { d with checkOnly := true } rest
  | "--explain" :: rest => readArguments { d with explain := true } rest
  | "--invert" :: rest | "-v" :: rest =>
    readArguments { d with rule := { d.rule with invert := true } } rest
  | ["--input"] | ["-i"] => .error (.noValue "--input")
  | "--input" :: text :: rest | "-i" :: text :: rest =>
    readArguments { d with input := some text } rest
  | ["--max-bytes"] => .error (.noValue "--max-bytes")
  | "--max-bytes" :: text :: rest =>
    match Numeral.uint64? (Utf8.bytes text) with
    | some n => readArguments { d with rule := { d.rule with limit := n.toNat } } rest
    | none => .error (.badNumber "--max-bytes" text)
  | argument :: rest =>
    if ['-'].isPrefixOf argument.toList then .error (.unknownOption argument)
    else
      match d.expression with
      | none => readArguments { d with expression := some argument } rest
      | some _ => .error (.tooMany argument)

/-- **The request that arguments make.** -/
def ofArguments : List String → Except UsageError FilterRequest
  | [] => .error .noCommand
  | "filter" :: rest => do (← readArguments .start (rest.flatMap splitOption)).request
  | argument :: _ => .error (.unknownCommand argument)

end Command

/-- What is shown of an answer. -/
def FilterAnswer.output : FilterAnswer → String
  | .valid buckets slots => s!"Expression is valid ({buckets} buckets, {slots} slots)\n"
  | .plan text => text
  | .selection s => String.join (s.lines.map (· ++ "\n"))

/-- Whether an answer needs a text to filter. -/
def FilterRequest.needsInput (q : FilterRequest) : Bool :=
  q.input.isNone && !q.checkOnly && !q.explain

end Sift
