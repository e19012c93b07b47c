import AutoPR.Frontend.Preview

/-! What the preview shows of a body, block by block. The lines are read with what waits for its
block in variables; what comes of it is told by a grammar of the lines that mentions none of them:
a stretch of code, a run of items or a run of other lines makes one block. -/
namespace AutoPR.Frontend

inductive Kind where
  | fence (lang : Line)
  | skipped
  | block (block : Block)
  | item (text : Line)
  | plain (text : Line)

def kindOf (raw : Line) : Kind :=
  let line := trimEnd raw
  if isFence line then .fence (trim ((trim line).drop 3))
  else if isDetails line then .skipped
  else match summaryOf line with
  | some text => .block (.summary text)
  | none =>
      if "### ".toList.isPrefixOf line then .block (.heading 4 (renderInline (line.drop 4)))
      else if "## ".toList.isPrefixOf line then .block (.heading 3 (renderInline (line.drop 3)))
      else if "- ".toList.isPrefixOf line then .item (line.drop 2)
      else if trim line = [] then .skipped
      else .plain line

section
variable {r : Renderer} {raw : Line} {done blocks : List Block} {lines rest run texts : List Line}

end

end AutoPR.Frontend
