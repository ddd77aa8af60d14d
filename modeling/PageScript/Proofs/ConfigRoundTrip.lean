import PageScript.Config
import PageScript.Proofs.Decoding
import PageScript.Proofs.Delivery
import PageScript.Proofs.FileTrees
import PageScript.Proofs.TomlDocuments

namespace PageScript.Config
open Text.Utf8 (decode? encode decode?_encode)
open Toml (Line)

def lines (c : Config) : List Line :=
  [.header "script" (by decide), .text "path" c.scriptPath (by decide), .blank,
    .header "log" (by decide), .text "level" c.logLevel (by decide),
    .boolean "json" c.logJson (by decide)]

theorem toList_toToml (c : Config) : c.toToml.toList = c.lines.flatMap Line.chars := by
  have hscript : "[script]\npath = ".toList =
      '[' :: ("script".toList ++ ']' :: '\n' :: ("path".toList ++ [' ', '=', ' '])) := by decide
  have hlog : "\n\n[log]\nlevel = ".toList = '\n' :: '\n' :: '[' ::
      ("log".toList ++ ']' :: '\n' :: ("level".toList ++ [' ', '=', ' '])) := by decide
  have hjson : "\njson = ".toList = '\n' :: ("json".toList ++ [' ', '=', ' ']) := by decide
  have hlast : "\n".toList = ['\n'] := by decide
  unfold toToml
  simp only [String.toList_append, Toml.writeText, String.toList_ofList, hscript, hlog, hjson,
    hlast, lines, Line.chars, List.flatMap_cons, List.flatMap_nil, List.append_assoc,
    List.cons_append, List.nil_append, List.append_nil]

theorem read_toToml (c : Config) :
    Toml.read c.toToml = some
      [("script", .table .header [("path", .text c.scriptPath)]),
        ("log", .table .header [("level", .text c.logLevel), ("json", .boolean c.logJson)])] := by
  rw [Toml.read_lines c.toList_toToml]
  rfl

theorem contents_file (bs : Text.Bytes) : (Node.file bs).source.contents = .ok bs := by
  rw [Node.source, Source.contents_eq, Source.failure_ofBytes, Source.bytes_ofBytes]
  rfl

theorem load_file (defaults : Config) (bs : Text.Bytes) :
    load defaults (.ok (.file bs)) = loadFrom defaults true (.ok bs) := by
  rw [← contents_file]
  rfl

theorem load_toToml (defaults c : Config) :
    load defaults (.ok (.file (encode c.toToml))) = .ok c := by
  rw [load_file]
  simp only [loadFrom, decode?_encode, read_toToml]
  rfl

/-- Where a configuration was saved, it is loaded again. -/
theorem load_save (defaults c : Config) (tree : FileTree) (path : String)
    (saved : (c.save tree path).1 = .ok ()) :
    load defaults ((c.save tree path).2.stat path) = .ok c := by
  have hs : (tree.save path (encode c.toToml)).1 = .ok () := by
    unfold save at saved
    cases hr : (tree.save path (encode c.toToml)).1 with
    | error e => simp [hr, Except.mapError] at saved
    | ok u => rfl
  have hstat := FileTree.stat_save hs
  unfold save
  simp only [hstat]
  exact load_toToml defaults c

/-- A configuration with quotes, a backslash and line ends, saved over a file that held no text. -/
theorem load_save_again :
    let tree : FileTree := ⟨.directory [("w", .directory [("c.toml", .file [0xFF])])], ["w"]⟩
    let c : Config := ⟨"\n'''\"\"\"\r\\", "\"\"", true⟩
    (c.save tree "c.toml").1 = .ok () ∧
      load ⟨"", "", false⟩ ((c.save tree "c.toml").2.stat "c.toml") = .ok c := by
  intro tree c
  have hs : (c.save tree "c.toml").1 = .ok () := by rfl
  exact ⟨hs, load_save ⟨"", "", false⟩ c tree "c.toml" hs⟩

end PageScript.Config
