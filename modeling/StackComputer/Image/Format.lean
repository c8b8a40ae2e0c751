import StackComputer.Host.Files
import StackComputer.Text.Quoted

/-!
Picture formats, told apart by the extension of the file's name.

Only one of the formats that are recognized can be written.
-/

namespace StackComputer

namespace Image

inductive Format where
  | avif
  | jpeg
  | png
  | gif
  | webp
  | tiff
  | tga
  | dds
  | bmp
  | ico
  | hdr
  | openExr
  | pnm
  | farbfeld
  | qoi
  deriving DecidableEq, Repr

namespace Format

def name : Format → String
  | .avif => "Avif"
  | .jpeg => "Jpeg"
  | .png => "Png"
  | .gif => "Gif"
  | .webp => "WebP"
  | .tiff => "Tiff"
  | .tga => "Tga"
  | .dds => "Dds"
  | .bmp => "Bmp"
  | .ico => "Ico"
  | .hdr => "Hdr"
  | .openExr => "OpenExr"
  | .pnm => "Pnm"
  | .farbfeld => "Farbfeld"
  | .qoi => "Qoi"

def extensions : List (String × Format) :=
  [("avif", .avif), ("jpg", .jpeg), ("jpeg", .jpeg), ("jfif", .jpeg), ("png", .png),
   ("apng", .png), ("gif", .gif), ("webp", .webp), ("tif", .tiff), ("tiff", .tiff),
   ("tga", .tga), ("dds", .dds), ("bmp", .bmp), ("ico", .ico), ("hdr", .hdr),
   ("exr", .openExr), ("pbm", .pnm), ("pam", .pnm), ("ppm", .pnm), ("pgm", .pnm),
   ("pnm", .pnm), ("ff", .farbfeld), ("qoi", .qoi)]

end Format

inductive FormatError where
  | undetermined
  | unrecognized (extension : String)
  | unsupported (format : Format)
  deriving DecidableEq, Repr

def FormatError.message : FormatError → String
  | .undetermined => "The image format could not be determined"
  | .unrecognized e =>
      "The file extension `." ++ Quoted.quote e ++ "` was not recognized as an image format"
  | .unsupported f => "The image format `" ++ f.name ++ "` is not supported"

/-- The format that a path stands for.  ASCII letters count the same in either case. -/
def Format.ofPath (path : String) : Except FormatError Format :=
  match Path.extension? path with
  | none => .error .undetermined
  | some e =>
      match Format.extensions.lookup (e.map Char.toLower) with
      | none => .error (.unrecognized e)
      | some f => .ok f

end Image

end StackComputer
