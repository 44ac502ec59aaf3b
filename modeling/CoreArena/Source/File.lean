import CoreArena.Disk
import CoreArena.Source.Assembly

/-! Program texts in files. -/

namespace CoreArena.Source

def readFile (d : Disk) (path : String) : Except AssemblyError String :=
  match d.readText path with
  | .error fault => .error (.unreadable path fault.message)
  | .ok text => .ok text

def assembleFile (d : Disk) (path : String) : Except AssemblyError Assembled :=
  (readFile d path).bind assemble

end CoreArena.Source
