import ImapDialogue.Text

/-!
Kinds of files by the endings of their names.
-/

namespace ImapDialogue.Mail.FileName

/-- Kinds with the endings that stand for them. Plain text and files of unknown form have
none. -/
def kinds : List (String × List String) :=
  [("text/html", ["html", "htm", "htmls", "htx", "shtml", "acgi", "stm"]),
    ("text/css", ["css"]),
    ("text/csv", ["csv"]),
    ("text/tab-separated-values", ["tsv"]),
    ("text/calendar", ["ics", "ifb"]),
    ("text/vcard", ["vcf", "vcard"]),
    ("text/richtext", ["rtx"]),
    ("text/sgml", ["sgml", "sgm"]),
    ("text/troff", ["t", "tr", "roff", "man", "me", "ms"]),
    ("text/uri-list", ["uri", "uris", "urls"]),
    ("text/x-asm", ["s", "asm"]),
    ("text/x-component", ["htc"]),
    ("text/x-python", ["py"]),
    ("application/atom+xml", ["atom"]),
    ("application/epub+zip", ["epub"]),
    ("application/gzip", ["gz", "tgz"]),
    ("application/java-archive", ["jar", "war", "ear"]),
    ("application/javascript", ["js", "mjs"]),
    ("application/json", ["json"]),
    ("application/msword", ["doc", "dot"]),
    ("application/ogg", ["ogx"]),
    ("application/pdf", ["pdf"]),
    ("application/pgp-encrypted", ["pgp"]),
    ("application/pgp-signature", ["sig"]),
    ("application/pkcs10", ["p10"]),
    ("application/pkcs7-mime", ["p7m", "p7c"]),
    ("application/pkcs7-signature", ["p7s"]),
    ("application/pkix-cert", ["cer"]),
    ("application/pkix-crl", ["crl"]),
    ("application/postscript", ["ps", "eps", "ai"]),
    ("application/rdf+xml", ["rdf"]),
    ("application/rss+xml", ["rss"]),
    ("application/rtf", ["rtf"]),
    ("application/vnd.android.package-archive", ["apk"]),
    ("application/vnd.mozilla.xul+xml", ["xul"]),
    ("application/vnd.ms-excel", ["xls", "xlt", "xla"]),
    ("application/vnd.ms-fontobject", ["eot"]),
    ("application/vnd.ms-outlook", ["msg"]),
    ("application/vnd.ms-powerpoint", ["ppt", "pps", "pot"]),
    ("application/vnd.oasis.opendocument.graphics", ["odg"]),
    ("application/vnd.oasis.opendocument.presentation", ["odp"]),
    ("application/vnd.oasis.opendocument.spreadsheet", ["ods"]),
    ("application/vnd.oasis.opendocument.text", ["odt"]),
    ("application/vnd.openxmlformats-officedocument.presentationml.presentation", ["pptx"]),
    ("application/vnd.openxmlformats-officedocument.presentationml.slideshow", ["ppsx"]),
    ("application/vnd.openxmlformats-officedocument.spreadsheetml.sheet", ["xlsx"]),
    ("application/vnd.openxmlformats-officedocument.wordprocessingml.document", ["docx"]),
    ("application/vnd.visio", ["vsd"]),
    ("application/x-7z-compressed", ["7z"]),
    ("application/x-bittorrent", ["torrent"]),
    ("application/x-bzip", ["bz"]),
    ("application/x-bzip2", ["bz2", "boz"]),
    ("application/x-csh", ["csh"]),
    ("application/x-debian-package", ["deb"]),
    ("application/x-dvi", ["dvi"]),
    ("application/x-latex", ["latex", "ltx"]),
    ("application/x-mspublisher", ["pub"]),
    ("application/x-rar-compressed", ["rar"]),
    ("application/x-sh", ["sh"]),
    ("application/x-shockwave-flash", ["swf"]),
    ("application/x-tar", ["tar"]),
    ("application/x-tcl", ["tcl"]),
    ("application/x-tex", ["tex"]),
    ("application/x-texinfo", ["texinfo", "texi"]),
    ("application/x-x509-ca-cert", ["crt", "der"]),
    ("application/xhtml+xml", ["xhtml", "xht"]),
    ("application/xml", ["xml", "xsl"]),
    ("application/xml-dtd", ["dtd"]),
    ("application/xslt+xml", ["xslt"]),
    ("application/zip", ["zip"]),
    ("audio/aiff", ["aif", "aiff", "aifc"]),
    ("audio/basic", ["au", "snd"]),
    ("audio/flac", ["flac"]),
    ("audio/midi", ["mid", "midi", "kar", "rmi"]),
    ("audio/mp4", ["m4a", "mp4a"]),
    ("audio/mpeg", ["mp3", "mp2", "mpga", "m2a", "m3a"]),
    ("audio/ogg", ["oga", "ogg", "spx"]),
    ("audio/wav", ["wav"]),
    ("audio/x-aac", ["aac"]),
    ("audio/x-mpegurl", ["m3u"]),
    ("audio/x-ms-wma", ["wma"]),
    ("audio/x-realaudio", ["ra", "ram"]),
    ("image/bmp", ["bmp", "bm"]),
    ("image/gif", ["gif"]),
    ("image/ief", ["ief"]),
    ("image/jpeg", ["jpg", "jpeg", "jpe", "jfif"]),
    ("image/png", ["png"]),
    ("image/svg+xml", ["svg", "svgz"]),
    ("image/tiff", ["tif", "tiff"]),
    ("image/vnd.adobe.photoshop", ["psd"]),
    ("image/vnd.djvu", ["djvu", "djv"]),
    ("image/webp", ["webp"]),
    ("image/x-icon", ["ico"]),
    ("image/x-portable-anymap", ["pnm"]),
    ("image/x-portable-bitmap", ["pbm"]),
    ("image/x-portable-graymap", ["pgm"]),
    ("image/x-portable-pixmap", ["ppm"]),
    ("image/x-xbitmap", ["xbm"]),
    ("image/x-xpixmap", ["xpm"]),
    ("message/rfc822", ["eml", "mht", "mhtml", "mime", "nws"]),
    ("model/vrml", ["wrl", "vrml"]),
    ("video/3gpp", ["3gp"]),
    ("video/3gpp2", ["3g2"]),
    ("video/mp4", ["mp4", "mp4v", "mpg4"]),
    ("video/mpeg", ["mpeg", "mpg", "mpe", "m1v", "m2v"]),
    ("video/ogg", ["ogv"]),
    ("video/quicktime", ["mov", "qt"]),
    ("video/webm", ["webm"]),
    ("video/x-flv", ["flv"]),
    ("video/x-m4v", ["m4v"]),
    ("video/x-matroska", ["mkv"]),
    ("video/x-ms-wmv", ["wmv"]),
    ("video/x-msvideo", ["avi"])]

/-- What stands behind the last dot of a name, in small letters. A name without a dot is all
ending. -/
def ending (name : String) : String :=
  String.ofList (((Parts.between '.' name.toList).getLast?.getD []).map Char.toLower)

def kind? (name : String) : Option String :=
  (kinds.find? fun entry => entry.2.contains (ending name)).map Prod.fst

end ImapDialogue.Mail.FileName
