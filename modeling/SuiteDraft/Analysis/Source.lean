import SuiteDraft.Analysis.Report
import SuiteDraft.Grammar.Program

/-!
The analysis of a source: its tree in the dialect of its file, and what the tree says.
-/

namespace SuiteDraft.Report

def ofInput (path : String) (source : Input) : Report :=
  ofTree path (Grammar.treeOf (Grammar.Dialect.ofPath path) source)

def ofBytes (path : String) (bytes : List UInt8) : Report :=
  ofInput path (.ofGlyphs (Glyph.ofBytes bytes))

def ofText (path : String) (text : String) : Report := ofInput path (.ofGlyphs (Glyph.ofText text))

end SuiteDraft.Report
