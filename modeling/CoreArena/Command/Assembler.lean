import CoreArena.Admission.Worm
import CoreArena.Command.Console
import CoreArena.Source.Listing
import CoreArena.Text.Decimal

/-! The command that assembles a program text into a file of words. -/

namespace CoreArena.Command.Assembler

def usage (program : String) : String :=
  "\n".intercalate
    ["Redcode Compiler",
      "",
      "USAGE:",
      s!"    {program} <input.src> [OPTIONS]",
      "",
      "ARGS:",
      "    <input.src>    Redcode source file to compile",
      "",
      "OPTIONS:",
      "    -o, --output <file>     Output file path (defaults to <input>.bin)",
      "    -d, --disassemble       Print the compiled program back as statements",
      "    -c, --check             Run the admission filter on the compiled program",
      "    -h, --help              Print this help message",
      "",
      "EXAMPLES:",
      "    # Compile to default output name",
      s!"    {program} dwarf.src",
      "",
      "    # Compile with explicit output",
      s!"    {program} dwarf.src -o build/dwarf.bin",
      "",
      "    # Compile, list and check",
      s!"    {program} dwarf.src -d -c",
      ""]

structure Options where
  output : Option String := none
  list : Bool := false
  check : Bool := false

def parseOptions (program : String) (o : Options) : List String → Except (List Output) Options
  | [] => .ok o
  | arg :: rest =>
    if arg == "--output" || arg == "-o" then
      match rest with
      | [] => .error [.log (Log.error s!"{arg} requires an argument")]
      | path :: rest => parseOptions program { o with output := some path } rest
    else if arg == "--disassemble" || arg == "-d" then
      parseOptions program { o with list := true } rest
    else if arg == "--check" || arg == "-c" then
      parseOptions program { o with check := true } rest
    else
      .error [.log (Log.error s!"Unexpected argument: {arg}\n"), .log (Log.info (usage program))]

/-- Where the words of a program text go unless told otherwise. -/
def defaultOutput (input : String) : String :=
  Path.join ((Path.parent? input).getD ".") (Path.fileStem input ++ ".bin")

/-- The directory of a path, if it is named and not there. -/
def missingDirectory? (d : Disk) (path : String) : Option String :=
  (Path.parent? path).filter fun parent => !parent.isEmpty && !d.has parent

/-- A listing, each line after its address. -/
def numbered (words : List Word) : String :=
  String.join (words.zipIdx.map fun (w, address) =>
    let number := String.ofList (Text.padLeft 4 ' ' (Text.numeral address))
    s!"{number}  {String.ofList (Source.Listing.line w)}\n")

/-- What is done with a program that was assembled and written. -/
def reportOn (o : Options) (input output : String) (a : Source.Assembled) : Nat × List Output :=
  let count := a.words.length
  let entry := Log.info
    s!"Compiled {input} -> {output} ({count} instructions, {a.bytecode.length} bytes)"
  let named := a.name?.toList.map fun name => Output.log (Log.info s!"Program name: {name}")
  let listed := if o.list then [Output.drawn [.plain (numbered a.words)]] else []
  let (code, checked) :=
    if !o.check then (0, [])
    else match Admission.verdict? a.bytecode with
      | some verdict =>
        (2, [Output.log (Log.warn
          s!"Program {verdict.text} and would be refused by a world")])
      | none => (0, [Output.log (Log.info "Program passes the admission filter")])
  (code, .log entry :: named ++ listed ++ checked)

def assemble (d : Disk) (o : Options) (input : String) : Finished :=
  let fail (outputs : List Output) : Finished := ⟨1, outputs, d⟩
  if !d.has input then
    fail [.log (Log.error s!"Input file does not exist: {input}")]
  else
    let output := o.output.getD (defaultOutput input)
    match missingDirectory? d output with
    | some parent => fail [.log (Log.error s!"Output directory does not exist: {parent}")]
    | none =>
      match Source.assembleFile d input with
      | .error e =>
        fail (diagnosticOutputs d input ++ [.log (Log.error s!"Compilation failed: {e.message}")])
      | .ok assembled =>
        match d.writeBytes output ⟨assembled.bytecode.toArray⟩ with
        | .error fault =>
          fail [.log (Log.error s!"Failed to write output file: {fault.message}")]
        | .ok d =>
          let (code, outputs) := reportOn o input output assembled
          ⟨code, outputs, d⟩

def run (program : String) (args : List String) (d : Disk) : Finished :=
  match args with
  | [] => ⟨1, [.log (Log.info (usage program))], d⟩
  | input :: rest =>
    if isHelp input then ⟨0, [.log (Log.info (usage program))], d⟩
    else match parseOptions program {} rest with
      | .error outputs => ⟨1, outputs, d⟩
      | .ok o => assemble d o input

end CoreArena.Command.Assembler
