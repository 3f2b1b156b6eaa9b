import QualityGate.Diagnostics.Basic
import QualityGate.Event.Bus

/-! Changes of the editor's diagnostics and what they make known. -/

namespace QualityGate

inductive DiagnosticsUpdate where
  | set (file : String) (diagnostics : List EditorDiagnostic)
  | clear

/-- Clearing what is clear already is no change. -/
def DiagnosticsByFile.update (d : DiagnosticsByFile) : DiagnosticsUpdate → DiagnosticsByFile × List Event
  | .set file ds => (d.set file ds, [.diagnosticsChanged [d.key file]])
  | .clear => (d.clear, if d.files.isEmpty then [] else [.diagnosticsChanged (d.files.map (·.1))])

end QualityGate
