import LedSwitch.Journal.Record
import LedSwitch.Pattern.Reading

/-!
Which records are shown. A filter is a list of rules, each a target and the finest level that it admits; for a
record counts the rule with the longest target with which the name of the record's source begins. Besides, a
filter may have a pattern that has to occur in the text of a record. A filter selects records only: what is
printed for the user is always shown. What cannot be read in a setting is left out, with a warning.
-/

namespace LedSwitch

/-- Admits the records of some sources down to the level `finest`, or none of them. -/
structure Rule where
  /-- The beginning of the names of the sources, or nothing for all sources. -/
  target : Option String
  finest : Option Level
  deriving DecidableEq, Repr

/-- The text with which the names of a rule's sources begin. -/
def Rule.beginning (rule : Rule) : String := rule.target.getD ""

/-- Selects records. -/
structure Filter where
  /-- No two rules have the same target. -/
  rules : List Rule
  /-- What has to occur in the text of a record, if anything. -/
  pattern : Option Pattern
  deriving DecidableEq, Repr

namespace Filter

/-- Everything is admitted. -/
def everything : Filter := ⟨[⟨none, some .debug⟩], none⟩

/-- What cannot be read in a setting. -/
inductive Warning where
  /-- The setting has more than two parts. -/
  | extraParts (setting : String)
  /-- A rule, or the level in it. -/
  | invalidRule (text : String)
  | invalidPattern (fault : Pattern.Fault)
  deriving DecidableEq, Repr

/-- The first line of the message about a warning. -/
def Warning.message : Warning → String
  | .extraParts setting => "warning: invalid logging spec '" ++ setting ++ "', ignoring it (too many '/'s)"
  | .invalidRule text => "warning: invalid logging spec '" ++ text ++ "', ignoring it"
  | .invalidPattern fault => "warning: invalid regex filter - " ++ fault.message

/-- What a word says about the finest level, in any case of its letters. No record is finer than debug, so
    `trace` admits no more than that. -/
def level? (word : List Char) : Option (Option Level) :=
  let name := String.ofList (word.map Char.toLower)
  if name = "off" then some none
  else if name = "error" then some (some .error)
  else if name = "warn" then some (some .warn)
  else if name = "info" then some (some .info)
  else if name = "debug" ∨ name = "trace" then some (some .debug)
  else none

/-- Reads one rule: a level for all sources, a target of which everything is admitted, or `target=level`. -/
def ruleOf (entry : List Char) : Except Warning Rule :=
  match Parts.split '=' entry with
  | [word] =>
    match level? word with
    | some finest => .ok ⟨none, finest⟩
    | none => .ok ⟨some (String.ofList word), some .debug⟩
  | [target, word] =>
    let word := Blank.trim word
    if word = [] then .ok ⟨some (String.ofList target), some .debug⟩
    else match level? word with
      | some finest => .ok ⟨some (String.ofList target), finest⟩
      | none => .error (.invalidRule (String.ofList word))
  | _ => .error (.invalidRule (String.ofList entry))

/-- The entries of a list with commas between them, without those that are blank. -/
def entries (text : List Char) : List (List Char) :=
  ((Parts.split ',' text).map Blank.trim).filter (· ≠ [])

/-- The parts of a setting: the list of rules, and a pattern if there is a slash. -/
def parts? (setting : String) : Option (List Char × Option (List Char)) :=
  match Parts.split '/' setting.toList with
  | [rules] => some (rules, none)
  | [rules, pattern] => some (rules, some pattern)
  | _ => none

/-- Adds a rule. It takes the place of one with the same target. -/
def insert (rules : List Rule) (rule : Rule) : List Rule :=
  match rules with
  | [] => [rule]
  | first :: rest => if first.target = rule.target then rule :: rest else first :: insert rest rule

/-- The rules that a list stands for. Without any, errors alone are admitted. -/
def rulesOf (text : List Char) : List Rule :=
  match ((entries text).filterMap fun entry => (ruleOf entry).toOption).foldl insert [] with
  | [] => [⟨none, some .error⟩]
  | rules => rules

/-- The filter that a text stands for. -/
def ofText (setting : String) : Filter :=
  let (rules, pattern) := (parts? setting).getD ([], none)
  ⟨rulesOf rules, pattern.bind fun text => (Pattern.ofText text).toOption⟩

/-- The filter that a setting stands for; without a setting everything is admitted. -/
def ofSetting : Option String → Filter
  | none => everything
  | some text => ofText text

/-- The warning, if there is no value. -/
def warning? {α : Type} : Except Warning α → Option Warning
  | .ok _ => none
  | .error warning => some warning

/-- The warnings about a setting, in order. -/
def warnings : Option String → List Warning
  | none => []
  | some setting =>
    match parts? setting with
    | none => [.extraParts setting]
    | some (rules, pattern) =>
      (entries rules).filterMap (fun entry => warning? (ruleOf entry))
        ++ pattern.toList.filterMap fun text => warning? ((Pattern.ofText text).mapError .invalidPattern)

/-- The rule that counts for a source: the longest target wins, and of equal ones the last. -/
def ruleFor (filter : Filter) (source : Source) : Option Rule :=
  filter.rules.foldl (fun best rule =>
    if rule.beginning.toList.isPrefixOf source.label.toList ∧
        best.all (fun b => b.beginning.length ≤ rule.beginning.length) then some rule
    else best) none

/-- Whether the rules admit records of this level from a source. -/
def admitsLevel (filter : Filter) (level : Level) (source : Source) : Bool :=
  match filter.ruleFor source with
  | some ⟨_, some finest⟩ => level.rank ≤ finest.rank
  | _ => false

/-- Whether a record is shown. -/
def admits (filter : Filter) (record : Record) : Bool :=
  filter.admitsLevel record.level record.source
    && filter.pattern.all fun pattern => pattern.occursIn record.text.toList

/-- The text of an event that is shown. -/
def show? (filter : Filter) : Event → Option String
  | .logged record => if filter.admits record then some record.render else none
  | .printed line => some line

end Filter

end LedSwitch
