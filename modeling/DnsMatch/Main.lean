import DnsMatch.Program

/-! # The executable

Reads the files that a run looks at, runs the program on them, and shows what
it prints and logs. The environment says down to which level entries are
shown; without its word, errors and warnings are. -/

namespace DnsMatch.Main

/-- What comes of reading the files at the given paths. -/
def readFiles (paths : List Files.Path) : IO (List (Files.Path × Except String Octets)) :=
  paths.mapM fun path => do
    if path.text.contains '\x00' then
      return (path, .error "file name contained an unexpected NUL byte")
    try
      let contents ← IO.FS.readBinFile path.text
      return (path, .ok contents.data)
    catch failure => return (path, .error (toString failure))

/-- The help for a command or, unless the words name one, for the program, with the texts of its
commands and options as the option parser lays them out. -/
def help : List String → String
  | "compare" :: _ | ["help", "compare"] =>
    "Compare one expected message with one actual message\n\n" ++
    "Usage: dnscmp compare [OPTIONS] --expected <FILE> --actual <FILE>\n\n" ++
    "Options:\n" ++
    "      --expected <FILE>  Set the file containing the expected message\n" ++
    "      --actual <FILE>    Set the file containing the actual message\n" ++
    "      --mode <MODE>      Set how the messages are compared (exact or ignore-ttls) " ++
      "[default: ignore-ttls]\n" ++
    "      --format <FORMAT>  Set how the message files are encoded (raw, hex, or base64) " ++
      "[default: raw]\n" ++
    "  -h, --help             Print help\n"
  | "batch" :: _ | ["help", "batch"] =>
    "Compare the pairs of messages listed in a configuration file\n\n" ++
    "Usage: dnscmp batch --config <FILE>\n\n" ++
    "Options:\n" ++
    "      --config <FILE>  Set the configuration file listing the pairs to compare\n" ++
    "  -h, --help           Print help\n"
  | _ =>
    "Compares DNS messages, ignoring the TTLs of resource records\n\n" ++
    "Usage: dnscmp <COMMAND>\n\n" ++
    "Commands:\n" ++
    "  compare  Compare one expected message with one actual message\n" ++
    "  batch    Compare the pairs of messages listed in a configuration file\n" ++
    "  help     Print this message or the help of the given subcommand(s)\n\n" ++
    "Options:\n" ++
    "  -h, --help     Print help\n" ++
    "  -V, --version  Print version\n"

/-- The host on which these files were read. It does not look for the place of an error. -/
def host (files : List (Files.Path × Except String Octets)) : Host where
  read path := (files.lookup path).getD (.error "the file was not looked for")
  notUtf8 _ := "invalid utf-8 sequence"
  notBase64 _ := "invalid base64 text"
  notConfiguration _ := "invalid configuration"
  help := help

/-- The threshold that the environment asks for. -/
def threshold : IO Log.Threshold := do
  let asked ← IO.getEnv "RUST_LOG"
  return (asked.bind Log.Threshold.ofName?).getD (.upTo .warn)

end DnsMatch.Main

open DnsMatch in
def main (words : List String) : IO UInt32 := do
  let named ← Main.readFiles (Program.paths (Main.host []) words)
  let files ← Main.readFiles (Program.paths (Main.host named) words)
  let ending := Program.run (Main.host files) words
  for entry in (← Main.threshold).filter ending.log do
    IO.eprintln ("[" ++ entry.level.name ++ "] " ++ entry.message)
  IO.print ending.output
  return ending.status.toUInt32
