import ImportAtlas.Reference.Progress

namespace ImportAtlas

namespace ScanState

def run (s : ScanState) : Except ScanFailure (List Reference) :=
  match _h : s.step with
  | .error e => .error e
  | .ok none => .ok s.found.reverse
  | .ok (some s') => s'.run
termination_by s.cursor.rest.length
decreasing_by exact length_lt_of_step _h

end ScanState

def scan (text : String) : Except ScanFailure (List Reference) :=
  (ScanState.initial text.toList).run

end ImportAtlas
