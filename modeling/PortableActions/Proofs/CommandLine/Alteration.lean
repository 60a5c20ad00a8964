import PortableActions.Proofs.CommandLine.PathLists
import PortableActions.Proofs.Path.Alteration
-- What the stages behind the first one make of a command line, whatever the classpath has put in.
-- On a POSIX platform they take out braces only. On Windows they also turn paths around and put
-- the home directory in; all other characters stay in their places on either.
namespace PortableActions
open PortableActions.Template
open PortableActions.Text (Alters)

namespace Platform

variable {platform : Platform}

-- The separators are those of the family; home directory and threshold may be any.
structure Stock (platform : Platform) : Prop where
  file : platform.fileSeparator = if platform.isWindows then ['\\'] else ['/']
  path : platform.pathSeparator = if platform.isWindows then [';'] else [':']

theorem stock_standard (home : Text) (threshold : Int) :
    Stock { posix home with argsThreshold := threshold } ∧ Stock { windows home with argsThreshold := threshold } := by
  constructor <;> exact ⟨rfl, rfl⟩

-- What the stages may take out, and what they may put in.

def lost (platform : Platform) : List Char :=
  if platform.isWindows then ['{', '}', '/', '\\', '.', ':', ';', '~'] else ['{', '}']

def gained (platform : Platform) : List Char :=
  if platform.isWindows then ['\\', '.', ';', '&'] ++ platform.home else []

theorem turns (windows : platform.isWindows = true) : Path.Windows.Turns platform.lost platform.gained := by
  constructor <;> simp [lost, gained, windows]

theorem nativePath_alters (windows : platform.isWindows = true) (path : Text) {e : Char} {came : Text}
    (ends : e ∈ platform.lost) (new : came ⊆ platform.gained) :
    Alters platform.lost platform.gained (path ++ [e]) (platform.nativePath path ++ came) := by
  unfold nativePath
  rw [if_pos windows]
  split
  · rename_i rest
    apply Path.Windows.print_alters (turns windows) new
    intro came comes
    obtain ⟨front, shown, made⟩ := Path.Windows.append_text (Path.Windows.parse platform.home) (Path.Windows.parse rest)
    have known : front ⊆ platform.gained := by
      intro c inside
      have place : c ∈ platform.home ∨ c ∈ ['\\', '.'] := by
        rcases made c inside with base | rfl
        · exact Path.Windows.mem_text base
        · simp
      rw [gained, if_pos windows]
      rcases place with inner | either
      · exact List.mem_append_right _ inner
      · exact List.mem_append_left _ ((by simp : ['\\', '.'] ⊆ ['\\', '.', ';', '&']) either)
    have lead : Alters platform.lost platform.gained ['~', '/'] front :=
      .run (by simp) (by simp [lost, windows]) known
    have whole := lead.append (Path.Windows.parse_alters (turns windows) rest ends comes)
    rw [shown, List.append_assoc]
    simpa using whole
  · exact Path.Windows.normal_alters (turns windows) path ends new

end Platform

namespace CommandLine

variable {platform : Platform}

theorem native_alters (stock : platform.Stock) (held : Text) :
    Alters platform.lost platform.gained ('{' :: (held ++ ['}'])) (PathList.native platform held) := by
  unfold PathList.native
  split
  · rename_i windows
    have opening : Alters platform.lost platform.gained ['{'] [] := .gone (by simp [Platform.lost, windows])
    have colon : ':' ∈ platform.lost := by simp [Platform.lost, windows]
    have closing : '}' ∈ platform.lost := by simp [Platform.lost, windows]
    have parted : platform.pathSeparator ⊆ platform.gained := by simp [stock.path, windows, Platform.gained]
    have some_ : PathList.split held ≠ [] := PathList.splitFrom_ne_nil [] [] held
    have entries := Text.alters_join (fun path _ _ ends new => Platform.nativePath_alters windows path ends new)
      colon parted closing (List.nil_subset _) some_
    rw [PathList.split, PathList.join_splitFrom, List.append_nil] at entries
    exact opening.append entries
  · rename_i posix
    have opening : Alters platform.lost platform.gained ['{'] [] := .gone (by simp [Platform.lost, posix])
    have closing : Alters platform.lost platform.gained ['}'] [] := .gone (by simp [Platform.lost, posix])
    have whole := opening.append ((Alters.refl held).append closing)
    rwa [List.append_nil] at whole

theorem substitutePaths_alters (stock : platform.Stock) (t : Text) :
    Alters platform.lost platform.gained t (substitutePaths platform t) := by
  apply Text.alters_replace Marker.bracedPath_sized
  intro front rest held seen
  rw [(Marker.bracedPath_front seen).1]
  exact native_alters stock held

-- A symbol between braces gives way to what stands for it, or stays without them.
theorem symbol_alters {k : Char} {new : Text} (plain : platform.isWindows = false → new = [k])
    (turned : platform.isWindows = true → k ∈ platform.lost ∧ new ⊆ platform.gained) (t : Text) :
    Alters platform.lost platform.gained t (Text.replaceAll ['{', k, '}'] new t) := by
  apply Text.alters_replace (Text.literal_sized _)
  intro front rest held seen
  rw [Text.literal_front seen]
  cases windows : platform.isWindows with
  | false =>
    have opening : Alters platform.lost platform.gained ['{'] [] := .gone (by simp [Platform.lost, windows])
    have closing : Alters platform.lost platform.gained ['}'] [] := .gone (by simp [Platform.lost, windows])
    rw [plain windows]
    exact opening.append ((Alters.refl [k]).append closing)
  | true =>
    obtain ⟨out, comes⟩ := turned windows
    refine .run (by simp) ?_ comes
    simp only [List.cons_subset, List.nil_subset, and_true]
    exact ⟨by simp [Platform.lost, windows], out, by simp [Platform.lost, windows]⟩

theorem substituteSymbols_alters (stock : platform.Stock) (t : Text) :
    Alters platform.lost platform.gained t (substituteSymbols platform t) := by
  have file : ∀ t, Alters platform.lost platform.gained t (Text.replaceAll Marker.fileSeparator platform.fileSeparator t) :=
    symbol_alters (fun posix => by simp [stock.file, posix])
      fun windows => by simp [stock.file, windows, Platform.lost, Platform.gained]
  have list : ∀ t, Alters platform.lost platform.gained t (Text.replaceAll Marker.pathSeparator platform.pathSeparator t) :=
    symbol_alters (fun posix => by simp [stock.path, posix])
      fun windows => by simp [stock.path, windows, Platform.lost, Platform.gained]
  have home : ∀ t, Alters platform.lost platform.gained t (Text.replaceAll Marker.home platform.homeMarker t) :=
    symbol_alters (fun posix => by simp [Platform.homeMarker, posix])
      fun windows => by
        simp only [Platform.homeMarker, windows, Platform.lost, Platform.gained, if_true]
        exact ⟨by simp, List.subset_append_right _ _⟩
  have end_ : ∀ t, Alters platform.lost platform.gained t (Text.replaceAll Marker.commandSeparator platform.commandSeparator t) :=
    symbol_alters (fun posix => by simp [Platform.commandSeparator, posix])
      fun windows => by simp [Platform.commandSeparator, windows, Platform.lost, Platform.gained]
  exact (file t).trans ((list _).trans ((home _).trans (end_ _)))

theorem expand_alters (stock : platform.Stock) (template : Text) (classpath : Option Classpath) :
    Alters platform.lost platform.gained (Classpath.substitute classpath platform template) (expand template classpath platform) :=
  (substitutePaths_alters stock _).trans (substituteSymbols_alters stock _)

end CommandLine
end PortableActions
