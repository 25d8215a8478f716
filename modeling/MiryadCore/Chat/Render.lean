import MiryadCore.Users.Membership

/-!
# The texts sent to a room

A long output is cut into parts, at the end of a code block, at an empty line,
at the end of a line, at a space or anywhere.  A code block that is cut is
closed, and opened again in the next part.
-/

namespace MiryadCore.Chat.Bridging

open Users (trim)

def MAX_PART_CHARS : ℕ := 4000

def MAX_PARTS : ℕ := 8

def PREFIX_RESERVE : ℕ := 8

def FENCE_RESERVE : ℕ := 16

def TRUNC_SUFFIX_RESERVE : ℕ := 48

def BODY_BUDGET : ℕ := MAX_PART_CHARS - PREFIX_RESERVE - FENCE_RESERVE

/-- The marker of a code block. -/
def fence : List Char :=
  ['\x60', '\x60', '\x60']

structure LineInfo where
  start : ℕ
  /-- The newline of the line is before its end. -/
  stop : ℕ
  blank : Bool
  closes : Bool
  /-- The language of the block that the line opens. -/
  opens : Option String
  deriving DecidableEq, Repr

/-- The lines from an index on. -/
def lineInfosFrom (rest : List Char) (start : ℕ) (inBlock : Bool) :
    List LineInfo :=
  match rest with
  | [] => []
  | first :: others =>
      let content := (first :: others).takeWhile fun char => char ≠ '\n'
      let after := (first :: others).drop (content.length + 1)
      let length := min (content.length + 1) (first :: others).length
      let trimmed := trim content
      let marks := fence.isPrefixOf trimmed
      let closes := marks && inBlock
      let opens :=
        if marks && !inBlock then
          some (String.ofList (trimmed.dropWhile fun char => char = '\x60'))
        else none
      let blockAfter := if marks then !inBlock else inBlock
      { start, stop := start + length
        blank :=
          !blockAfter && !closes && opens.isNone && content.isEmpty
        closes, opens } ::
        lineInfosFrom after (start + length) blockAfter
termination_by rest.length
decreasing_by
  simp only [List.length_drop, List.length_cons]
  omega

def lineInfos (chars : List Char) : List LineInfo :=
  lineInfosFrom chars 0 false

/-- Whether a block is open at a cut, after these lines, and its language. -/
def fenceStateFrom (cut : ℕ) :
    List LineInfo → Bool → String → Bool × String
  | [], opened, lang => (opened, lang)
  | line :: lines, opened, lang =>
      if cut ≤ line.start then (opened, lang)
      else
        let after : Bool × String :=
          match line.opens with
          | some name => if opened then (opened, lang) else (true, name)
          | none => if line.closes then (false, lang) else (opened, lang)
        if cut < line.stop then after
        else fenceStateFrom cut lines after.1 after.2

def fenceState (lines : List LineInfo) (cut : ℕ) : Bool × String :=
  fenceStateFrom cut lines false ""

/-- The last of the cuts that these lines give, of those that start before the
end of the window. -/
def lastCut (lines : List LineInfo) (upTo : ℕ) (cut : LineInfo → Option ℕ) :
    Option ℕ :=
  ((lines.takeWhile fun line => line.start < upTo).filterMap cut).getLast?

def findCut (lines : List LineInfo) (chars : List Char) (from_ upTo : ℕ) : ℕ :=
  let ending (candidate : LineInfo → Bool) (line : LineInfo) : Option ℕ :=
    if candidate line ∧ from_ < line.stop ∧ line.stop ≤ upTo then some line.stop
    else none
  let lineEnd (line : LineInfo) : Option ℕ :=
    let candidate := min line.stop upTo
    if from_ < candidate ∧ chars[candidate - 1]? = some '\n' then
      some candidate
    else none
  match lastCut lines upTo (ending LineInfo.closes) with
  | some cut => cut
  | none =>
  match lastCut lines upTo (ending LineInfo.blank) with
  | some cut => cut
  | none =>
  match lastCut lines upTo lineEnd with
  | some cut => cut
  | none =>
      let window := (chars.take upTo).drop from_
      match window.reverse.findIdx? fun char => char = ' ' with
      | some after => from_ + (window.length - after)
      | none => upTo

/-- The loop over the parts: those made so far, the position, the number of
characters consumed, and what opens a block again. -/
def splitBodies (lines : List LineInfo) (chars : List Char)
    (bodies : List String) (pos consumed : ℕ) (reopenPrefix : String) :
    List String :=
  if chars.length ≤ pos then bodies
  else
    let lastAllowed : Bool := bodies.length + 1 = MAX_PARTS
    let room := BODY_BUDGET - reopenPrefix.length
    let bodyRoom :=
      if lastAllowed ∧ pos + room < chars.length then
        room - TRUNC_SUFFIX_RESERVE
      else room
    if chars.length ≤ pos + bodyRoom ∧ ¬ lastAllowed then
      bodies ++ [reopenPrefix ++ String.ofList (chars.drop pos)]
    else
      let upTo := min (pos + bodyRoom) chars.length
      let cut := max (findCut lines chars pos upTo) (pos + 1)
      let body := String.ofList ((chars.take cut).drop pos)
      let state := fenceState lines cut
      let part :=
        if state.1 then reopenPrefix ++ body ++ "\n" ++ String.ofList fence
        else reopenPrefix ++ body
      let nextReopen :=
        if state.1 then String.ofList fence ++ state.2 ++ "\n" else ""
      let consumed := consumed + (cut - pos)
      if bodies.length + 1 = MAX_PARTS then
        if cut < chars.length then
          let omis := chars.length - consumed
          bodies ++ [part ++ "… (sortie tronquée, " ++ toString omis ++
            " caractères omis)"]
        else bodies ++ [part]
      else splitBodies lines chars (bodies ++ [part]) cut consumed nextReopen
termination_by chars.length - pos
decreasing_by omega

def splitMessage (text : String) : List String :=
  let chars := text.toList
  if chars = [] then []
  else if chars.length ≤ MAX_PART_CHARS then [text]
  else
    let bodies := splitBodies (lineInfos chars) chars [] 0 0 ""
    if bodies.length = 1 then bodies
    else
      bodies.mapIdx fun index body =>
        "(" ++ toString (index + 1) ++ "/" ++ toString bodies.length ++ ") " ++
          body

def formatNotice : List String → Option String
  | [] => none
  | notices => some ("Reprise : " ++ " ; ".intercalate notices)

def formatError (code : String) : String :=
  "Échec du tour (code " ++ code ++ ")."

def helpText : String :=
  "Commandes du pont :\n" ++
  "!new <contexte> [agent] — fermer la session de la salle et en ouvrir une nouvelle\n" ++
  "!cancel — interrompre le tour en cours\n" ++
  "!resume — reprendre la session et ses avis de provenance\n" ++
  "!activate <toolset> — promouvoir le brouillon d'un toolset\n" ++
  "!link <code> — lier ce compte Matrix à un compte miryad\n" ++
  "!help — cette aide"

end MiryadCore.Chat.Bridging
