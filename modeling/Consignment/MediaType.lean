import Consignment.Path
import Consignment.Url.Basic

namespace Consignment
namespace MediaType

/-!
# Media types of file names

The media type of a file is guessed from its name alone.  The last suffix decides,
in any case of letters; a suffix that names a compression is taken off first, and a
few short suffixes stand for two.  Leading dots of a name are no suffix.

A name may have the form of an address.  One that gives its data in place says its
own type, and the scheme of any other is taken off.
-/

def suffixTable : List (String × List String) := [
  ("application/javascript", [".js", ".mjs"]),
  ("application/json", [".json"]),
  ("application/manifest+json", [".webmanifest"]),
  ("application/msword", [".doc", ".dot", ".wiz"]),
  ("application/n-quads", [".nq"]),
  ("application/n-triples", [".nt"]),
  ("application/octet-stream", [".a", ".bin", ".dll", ".exe", ".o", ".obj", ".so"]),
  ("application/oda", [".oda"]),
  ("application/pdf", [".pdf"]),
  ("application/pkcs7-mime", [".p7c"]),
  ("application/postscript", [".ai", ".eps", ".ps"]),
  ("application/trig", [".trig"]),
  ("application/vnd.apple.mpegurl", [".m3u", ".m3u8"]),
  ("application/vnd.ms-excel", [".xlb", ".xls"]),
  ("application/vnd.ms-powerpoint", [".pot", ".ppa", ".pps", ".ppt", ".pwz"]),
  ("application/wasm", [".wasm"]),
  ("application/x-bcpio", [".bcpio"]),
  ("application/x-cpio", [".cpio"]),
  ("application/x-csh", [".csh"]),
  ("application/x-dvi", [".dvi"]),
  ("application/x-gtar", [".gtar"]),
  ("application/x-hdf", [".hdf"]),
  ("application/x-hdf5", [".h5"]),
  ("application/x-latex", [".latex"]),
  ("application/x-mif", [".mif"]),
  ("application/x-netcdf", [".cdf", ".nc"]),
  ("application/x-pkcs12", [".p12", ".pfx"]),
  ("application/x-pn-realaudio", [".ram"]),
  ("application/x-python-code", [".pyc", ".pyo"]),
  ("application/x-sh", [".sh"]),
  ("application/x-shar", [".shar"]),
  ("application/x-shockwave-flash", [".swf"]),
  ("application/x-sv4cpio", [".sv4cpio"]),
  ("application/x-sv4crc", [".sv4crc"]),
  ("application/x-tar", [".tar"]),
  ("application/x-tcl", [".tcl"]),
  ("application/x-tex", [".tex"]),
  ("application/x-texinfo", [".texi", ".texinfo"]),
  ("application/x-troff", [".roff", ".t", ".tr"]),
  ("application/x-troff-man", [".man"]),
  ("application/x-troff-me", [".me"]),
  ("application/x-troff-ms", [".ms"]),
  ("application/x-ustar", [".ustar"]),
  ("application/x-wais-source", [".src"]),
  ("application/xml", [".rdf", ".wsdl", ".xpdl", ".xsl"]),
  ("application/zip", [".zip"]),
  ("audio/3gpp", [".3gp", ".3gpp"]),
  ("audio/3gpp2", [".3g2", ".3gpp2"]),
  ("audio/aac", [".aac", ".adts", ".ass", ".loas"]),
  ("audio/basic", [".au", ".snd"]),
  ("audio/mpeg", [".mp2", ".mp3"]),
  ("audio/opus", [".opus"]),
  ("audio/x-aiff", [".aif", ".aifc", ".aiff"]),
  ("audio/x-pn-realaudio", [".ra"]),
  ("audio/x-wav", [".wav"]),
  ("image/avif", [".avif"]),
  ("image/bmp", [".bmp"]),
  ("image/gif", [".gif"]),
  ("image/heic", [".heic"]),
  ("image/heif", [".heif"]),
  ("image/ief", [".ief"]),
  ("image/jpeg", [".jpe", ".jpeg", ".jpg"]),
  ("image/png", [".png"]),
  ("image/svg+xml", [".svg"]),
  ("image/tiff", [".tif", ".tiff"]),
  ("image/vnd.microsoft.icon", [".ico"]),
  ("image/x-cmu-raster", [".ras"]),
  ("image/x-portable-anymap", [".pnm"]),
  ("image/x-portable-bitmap", [".pbm"]),
  ("image/x-portable-graymap", [".pgm"]),
  ("image/x-portable-pixmap", [".ppm"]),
  ("image/x-rgb", [".rgb"]),
  ("image/x-xbitmap", [".xbm"]),
  ("image/x-xpixmap", [".xpm"]),
  ("image/x-xwindowdump", [".xwd"]),
  ("message/rfc822", [".eml", ".mht", ".mhtml", ".nws"]),
  ("text/css", [".css"]),
  ("text/csv", [".csv"]),
  ("text/html", [".htm", ".html"]),
  ("text/n3", [".n3"]),
  ("text/plain", [".bat", ".c", ".h", ".ksh", ".pl", ".srt", ".txt"]),
  ("text/richtext", [".rtx"]),
  ("text/tab-separated-values", [".tsv"]),
  ("text/vtt", [".vtt"]),
  ("text/x-python", [".py"]),
  ("text/x-setext", [".etx"]),
  ("text/x-sgml", [".sgm", ".sgml"]),
  ("text/x-vcard", [".vcf"]),
  ("text/xml", [".xml"]),
  ("video/mp4", [".mp4"]),
  ("video/mpeg", [".m1v", ".mpa", ".mpe", ".mpeg", ".mpg"]),
  ("video/quicktime", [".mov", ".qt"]),
  ("video/webm", [".webm"]),
  ("video/x-msvideo", [".avi"]),
  ("video/x-sgi-movie", [".movie"])]

/-- The type of content of which nothing is known. -/
def unknown : String := "application/octet-stream"

/-- The suffixes that stand for two. -/
def doubleSuffixes : List (String × String) := [
  (".svgz", ".svg.gz"), (".tgz", ".tar.gz"), (".taz", ".tar.gz"), (".tz", ".tar.gz"),
  (".tbz2", ".tar.bz2"), (".txz", ".tar.xz")]

def compressions : List String := [".gz", ".Z", ".bz2", ".xz", ".br"]

/-- The lower case of a character, where it is one of ASCII; the sign for kelvin is the
only character outside ASCII with such a lower case. -/
def lower (c : Char) : Char :=
  if c == '\u212a' then 'k' else c.toLower

def lowerSuffix (cs : List Char) : String :=
  String.ofList (cs.map lower)

/-- Split a name before its last dot, unless only dots stand before that. -/
def splitSuffix (cs : List Char) : List Char × List Char :=
  let after := (cs.reverse.takeWhile (· != '.')).reverse
  if after.length < cs.length then
    let before := cs.take (cs.length - after.length - 1)
    if before.all (· == '.') then (cs, []) else (before, '.' :: after)
  else (cs, [])

/-- Replace a suffix that stands for two, and split the result again.  None of the
replacements ends in such a suffix, so one replacement is enough. -/
def splitDouble (cs : List Char) : List Char × List Char :=
  let (base, suffix) := splitSuffix cs
  match doubleSuffixes.lookup (lowerSuffix suffix) with
  | some two => splitSuffix (base ++ two.toList)
  | none => (base, suffix)

/-- The type of a suffix in lower case. -/
def ofSuffix? (suffix : String) : Option String :=
  (suffixTable.find? fun row => row.2.contains suffix).map Prod.fst

/-- The schemes whose addresses can have parameters after a semicolon. -/
def parameterSchemes : List String := [
  "ftp", "hdl", "prospero", "http", "https", "shttp", "rtsp", "rtsps", "sip", "sips", "mms",
  "sftp", "tel"]

/-- The scheme of a name that has the form of an address, and the path in it.  A single
letter is no scheme. -/
def splitAddress (cs : List Char) : Option (String × List Char) :=
  let (scheme, rest) := Url.splitScheme (Url.cleaned cs)
  if scheme.length ≤ 1 then none
  else
    let scheme := String.ofList scheme
    let path := (rest.takeWhile (· != '#')).takeWhile (· != '?')
    some (scheme, if parameterSchemes.contains scheme then path.takeWhile (· != ';') else path)

/-- The type that an address gives for its data: what stands before the first comma
and semicolon, or plain text when that is no type. -/
def ofData? (cs : List Char) : Option String :=
  let head := cs.takeWhile (· != ',')
  if head.length = cs.length then none
  else
    let type := head.takeWhile (· != ';')
    if type.contains '=' || !type.contains '/' then some "text/plain"
    else some (String.ofList type)

/-- The type of a name without a scheme. -/
def ofPlainName? (cs : List Char) : Option String :=
  let (base, suffix) := splitDouble cs
  let last := if compressions.contains (String.ofList suffix) then (splitSuffix base).2 else suffix
  ofSuffix? (lowerSuffix last)

def ofName? (name : String) : Option String :=
  match splitAddress name.toList with
  | none => ofPlainName? name.toList
  | some (scheme, rest) => if scheme == "data" then ofData? rest else ofPlainName? rest

/-- The type of a file.  The suffix of modules is settled before anything else about
the name is looked at. -/
def ofPath (p : Path) : String :=
  if lowerSuffix p.suffix == ".wasm" then "application/wasm"
  else (ofName? p.name).getD unknown

end MediaType
end Consignment
